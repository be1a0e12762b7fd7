import DatasetFilters.Proofs.Service.Conclusion

namespace DatasetFilters

/-- The names of dimensions and options that an error lists. -/
def ServiceError.named : ServiceError → List String
  | dimensionNotFound name => [name]
  | optionNotFound option => [option]
  | incorrectDimensions names => names
  | incorrectOptions dimension options => dimension :: options
  | patchFailed _ _ cause => cause.named
  | _ => []

section

variable (settings : Settings) (answers : Nat → (q : Query) → q.Reply → Prop) (me : Client)
  (past : List Moment)

/-- The errors that tell nothing of the dimensions of the blueprint which a client addresses. -/
inductive Client.Denied (id : String) : ServiceError → Prop
  /-- There is nothing under the id, or nothing that the client may see. -/
  | missing : Denied id (.filterNotFound id)
  | conflict : Denied id (.conflict id)
  | submitted : Denied id (.alreadySubmitted id)
  /-- The backend failed when the client used it. -/
  | failed (m : Moment) (moved : m ∈ past) (mover : m.mover = some me) (a : Access)
      (c : Collection) (detail : String)
      (failure : m.before.store.backend.failure? a c = some (.backend detail)) :
      Denied id (.store (.backend detail))
  /-- The id that was drawn for the output is in use. -/
  | taken (outputId : String) (submits : me.call.submits = true) :
      Denied id (.store (.alreadyExists outputId))
  /-- The call names more options than a patch may. -/
  | oversized {name : String} {operations : List PatchOperation} {selector : Selector}
      {error : PatchError} (asked : me.call = .patch id name operations selector)
      (judged : Patch.checkSize settings.maxPatchOptions operations = .error error) :
      Denied id (.patch error)
  /-- The call reports an event that is none. -/
  | malformed {u : BlueprintUpdate} {andSubmit : Bool} {selector : Selector} {detail : String}
      (asked : me.call = .update id u andSubmit selector)
      (judged : u.validEvents = .error (.badRequest detail)) : Denied id (.badRequest detail)
  /-- The call names members with other values than the stored ones. -/
  | forbidden {u : BlueprintUpdate} {andSubmit : Bool} {selector : Selector} {b : Blueprint}
      (asked : me.call = .update id u andSubmit selector) (saw : me.Saw past b) (hid : b.id = id)
      (offends : u.forbidden b ≠ []) : Denied id (.forbidden (u.forbidden b))
  /-- The catalog does not tell about a dataset version. -/
  | version {dataset : DatasetRef} {authenticated : Bool} {error : CatalogError}
      (heard : me.Heard answers past (.version dataset authenticated) (.error error)) :
      Denied id (.ofCatalog error)
  | dimensions {dataset : DatasetRef} {error : CatalogError}
      (heard : me.Heard answers past (.dimensions dataset) (.error error)) :
      Denied id (.ofCatalog error)

/-- The errors that tell of some dimensions, and of the options selected on them: what a dataset
version does not declare, what it does not confirm, and why it does not. -/
inductive Client.Learns (d : DatasetRef) (xs : List Dimension) : ServiceError → Prop
  | undeclared {declared : List VersionDimension} {names : List String}
      (heard : me.Heard answers past (.dimensions d) (.ok declared))
      (lacking : names =
        (xs.map (·.name)).filter fun name => !(declared.map (·.name)).contains name)
      (some : names ≠ []) : Learns d xs (.incorrectDimensions names)
  | unconfirmed {x : Dimension} {confirmed : List Confirmation} {unknown : List String}
      (stored : x ∈ xs)
      (heard : me.Heard answers past (.options d x.name
        (Lookup.plan settings.limits (Dimension.distinct x.options))) (.ok confirmed))
      (lacking : unknown =
        (Dimension.distinct x.options).filter (Validation.missing confirmed).contains)
      (some : unknown ≠ []) : Learns d xs (.incorrectOptions x.name unknown)
  | unanswered {x : Dimension} {error : CatalogError} (stored : x ∈ xs)
      (heard : me.Heard answers past (.options d x.name
        (Lookup.plan settings.limits (Dimension.distinct x.options))) (.error error)) :
      Learns d xs (.ofCatalog error)

/-- What is checked of an update that moves a blueprint to another version, before the dimensions are
that the blueprint would take along. -/
structure BlueprintUpdate.Moves (u : BlueprintUpdate) (b : Blueprint) (version : UInt32) : Prop where
  permitted : u.forbidden b = []
  events : ∃ events, u.validEvents = .ok events
  other : u.newVersion? b = some version
  editable : b.isSubmitted = false
  told : ∃ found, me.Heard answers past
    (.version (b.dataset.withVersion version) me.caller.authenticated) (.ok found)

/-- An update that got as far as to the dimensions of a blueprint there, and was told of them why it may
not move. -/
def Client.Exposes (id : String) (e : ServiceError) : Prop :=
  ∃ u andSubmit selector b version, me.call = .update id u andSubmit selector ∧ me.Saw past b ∧
    b.id = id ∧ selector.accepts b.etag = true ∧ u.Moves answers me past b version ∧
    me.Learns settings answers past (b.dataset.withVersion version) b.dimensions e

/-- Why a call about a blueprint fails: the client is denied it, or is told of its dimensions why it may
not move, or it is a call that looks at it and may see it. -/
inductive Client.Refused (id : String) (e : ServiceError) : Prop
  | denied (h : me.Denied settings answers past id e)
  | exposes (h : me.Exposes settings answers past id e)
  | sees {b : Blueprint} (looks : me.call.looks = true) (saw : me.Saw past b) (hid : b.id = id)
      (h : me.Sees answers past b)

end

variable {settings : Settings} {answers : Nat → (q : Query) → q.Reply → Prop} {me : Client}
  {past past' : List Moment} {id : String} {e : ServiceError}

theorem Client.Denied.mono (h : me.Denied settings answers past id e) (hs : past <:+ past') :
    me.Denied settings answers past' id e := by
  cases h with
  | missing => exact .missing
  | conflict => exact .conflict
  | submitted => exact .submitted
  | failed m moved mover a c detail failure =>
    exact .failed m (hs.mem moved) mover a c detail failure
  | taken outputId submits => exact .taken outputId submits
  | oversized asked judged => exact .oversized asked judged
  | malformed asked judged => exact .malformed asked judged
  | forbidden asked saw hid offends => exact .forbidden asked (saw.mono hs) hid offends
  | version heard => exact .version (heard.mono hs)
  | dimensions heard => exact .dimensions (heard.mono hs)

theorem Client.Learns.mono {d : DatasetRef} {xs : List Dimension}
    (h : me.Learns settings answers past d xs e) (hs : past <:+ past') :
    me.Learns settings answers past' d xs e := by
  cases h with
  | undeclared heard lacking some => exact .undeclared (heard.mono hs) lacking some
  | unconfirmed stored heard lacking some => exact .unconfirmed stored (heard.mono hs) lacking some
  | unanswered stored heard => exact .unanswered stored (heard.mono hs)

theorem Client.Exposes.mono (h : me.Exposes settings answers past id e) (hs : past <:+ past') :
    me.Exposes settings answers past' id e := by
  obtain ⟨u, andSubmit, selector, b, version, hcall, saw, hid, accepted, moves, learns⟩ := h
  obtain ⟨found, heard⟩ := moves.told
  exact ⟨u, andSubmit, selector, b, version, hcall, saw.mono hs, hid, accepted,
    { moves with told := ⟨found, heard.mono hs⟩ }, learns.mono hs⟩

/-- An error by which a client is denied lists no names, but for what the catalog itself says when it is
asked about a dataset version. -/
theorem Client.Denied.named (h : me.Denied settings answers past id e) :
    e.named = [] ∨ ∃ dataset error, e = .ofCatalog error ∧
      ((∃ authenticated, me.Heard answers past (.version dataset authenticated) (.error error)) ∨
        me.Heard answers past (.dimensions dataset) (.error error)) := by
  cases h with
  | version heard => exact Or.inr ⟨_, _, rfl, Or.inl ⟨_, heard⟩⟩
  | dimensions heard => exact Or.inr ⟨_, _, rfl, Or.inr heard⟩
  | _ => exact Or.inl rfl

theorem Client.Denied.of_failure {now : World} {a : Access} {c : Collection} {error : StoreError}
    (moved : ∃ m ∈ past, m.mover = some me ∧ m.before = now)
    (failure : now.store.backend.failure? a c = some error) :
    me.Denied settings answers past id (.ofStore error) := by
  obtain ⟨m, moved, mover, rfl⟩ := moved
  obtain ⟨detail, -, rfl⟩ := Option.map_eq_some_iff.mp failure
  exact .failed m moved mover a c detail failure

theorem Client.Refused.mono (h : me.Refused settings answers past id e) (hs : past <:+ past') :
    me.Refused settings answers past' id e := by
  cases h with
  | denied h => exact .denied (h.mono hs)
  | exposes h => exact .exposes (h.mono hs)
  | sees looks saw hid h => exact .sees looks (saw.mono hs) hid (h.mono hs)

namespace Validation

theorem concludes_declared (d : DatasetRef) : (declared d).Concludes answers me past
    (fun names past' => ∃ dimensions, me.Heard answers past' (.dimensions d) (.ok dimensions) ∧
      names = dimensions.map (·.name))
    fun e past' => ∃ error, e = .ofCatalog error ∧
      me.Heard answers past' (.dimensions d) (.error error) := by
  refine (Request.concludes_ask _).bind ?_
  intro reply past₁ _ heard
  refine (Request.concludes_answered ?_).bind ?_
  · rintro error rfl
    exact ⟨error, rfl, heard⟩
  · rintro dimensions past₂ hs rfl
    exact Request.concludes_pure ⟨dimensions, heard.mono hs, rfl⟩

theorem concludes_options {d : DatasetRef} {x : Dimension} {xs : List Dimension} (hx : x ∈ xs) :
    (options settings.limits d x.name x.options).Concludes answers me past (fun _ _ => True)
      fun e past' => me.Learns settings answers past' d xs e := by
  refine Request.concludes_ite (fun _ => Request.concludes_pure trivial) fun _ => ?_
  refine (Request.concludes_ask _).bind ?_
  intro reply past₁ _ heard
  refine (Request.concludes_answered ?_).bind ?_
  · rintro error rfl
    exact .unanswered hx heard
  · rintro confirmed past₂ hs rfl
    refine Request.concludes_ofExcept (fun _ _ => trivial) ?_
    intro e he
    unfold verdict at he
    by_cases known : ((Dimension.distinct x.options).filter (missing confirmed).contains) = []
    · simp [known] at he
    · simp only [List.isEmpty_iff, known, if_false] at he
      obtain rfl := Except.error.inj he
      exact .unconfirmed hx (heard.mono hs) rfl known

theorem concludes_allOptions {d : DatasetRef} {xs ys : List Dimension} (hys : ∀ y ∈ ys, y ∈ xs) :
    (allOptions settings.limits d ys).Concludes answers me past (fun _ _ => True)
      fun e past' => me.Learns settings answers past' d xs e := by
  induction ys generalizing past with
  | nil => exact Request.concludes_pure trivial
  | cons y ys ih =>
    refine (concludes_options (hys y List.mem_cons_self)).bind ?_
    intro _ past₁ _ _
    exact ih fun y' hy' => hys y' (List.mem_cons_of_mem _ hy')

/-- A check of dimensions fails because the catalog does not tell what the dataset version declares, or
with what it does not know of them. -/
theorem concludes_dimensions (id : String) (d : DatasetRef) (xs : List Dimension) :
    (dimensions settings.limits d xs).Concludes answers me past (fun _ _ => True)
      fun e past' => me.Denied settings answers past' id e ∨
        me.Learns settings answers past' d xs e := by
  refine Request.concludes_ite (fun _ => Request.concludes_pure trivial) fun _ => ?_
  refine ((concludes_declared d).weaken (fun _ _ _ h => h) ?_).bind ?_
  · rintro e past₁ - ⟨error, rfl, heard⟩
    exact Or.inl (.dimensions heard)
  · rintro names past₁ - ⟨declared, heard, rfl⟩
    refine Request.concludes_ite (fun _ => ?_) fun some => ?_
    · exact (concludes_allOptions fun _ h => h).weaken (fun _ _ _ h => h) fun _ _ _ h => Or.inr h
    · rw [List.isEmpty_iff] at some
      exact Request.concludes_fail (Or.inr (.undeclared heard rfl some))

end Validation

namespace Blueprints

/-- A move fails without a word about the dimensions, or once the blueprint was found to be editable
and the catalog told about the version. -/
theorem concludes_moveTo {b : Blueprint} (hid : b.id = id) (version : UInt32) :
    (moveTo settings b version me.caller).Concludes answers me past (fun _ _ => True)
      fun e past' => me.Denied settings answers past' id e ∨ b.isSubmitted = false ∧
        (∃ found, me.Heard answers past'
          (.version (b.dataset.withVersion version) me.caller.authenticated) (.ok found)) ∧
        me.Learns settings answers past' (b.dataset.withVersion version) b.dimensions e := by
  refine Request.concludes_ite (fun _ => Request.concludes_fail ?_) fun editable => ?_
  · rw [hid]
    exact Or.inl .submitted
  · rw [Bool.not_eq_true] at editable
    refine (Request.concludes_ask _).bind ?_
    intro reply past₁ _ heard
    refine (Request.concludes_answered ?_).bind ?_
    · rintro error rfl
      exact Or.inl (.version heard)
    · rintro found past₂ hs₂ rfl
      refine ((Validation.concludes_dimensions id _ b.dimensions).weaken (fun _ _ _ h => h) ?_).bind
        fun _ _ _ _ => Request.concludes_pure trivial
      intro e past₃ hs₃ failed
      exact failed.imp_right fun learns => ⟨editable, ⟨found, heard.mono (hs₂.trans hs₃)⟩, learns⟩

/-- A read fails with the backend, the tag, or for want of the blueprint. -/
theorem concludes_read (selector : Selector) :
    (Request.read (·.getFilter id selector)).Concludes answers me past
      (fun b past' => me.Saw past' b ∧ b.id = id ∧ selector.accepts b.etag = true)
      fun e past' => me.Refused settings answers past' id e := by
  refine Request.concludes_read ?_
  intro now past' sound hs
  have mem := hs.mem List.mem_cons_self
  constructor
  · intro b hb
    rcases Store.getFilter_cases sound id selector with ⟨_, he⟩ | ⟨x, hx, ha, he⟩
    · simp [he] at hb
    · rw [he] at hb
      obtain rfl := Except.ok.inj hb
      refine ⟨⟨_, mem, rfl, ?_⟩, sound.id_eq hx, ha⟩
      change (now.store.getFilter id selector).2.filter? x.id = some x
      rw [he, Store.filter?_touched, sound.id_eq hx]
      exact hx
  · intro error he
    rcases Store.getFilter_error sound he with failure | rfl | rfl
    · exact .denied (.of_failure ⟨_, mem, rfl, rfl⟩ failure)
    · exact .denied .missing
    · exact .denied .conflict

theorem concludes_updateFilter (c : BlueprintChange) (tag : String) :
    (Request.write fun s t => s.updateFilter t id c (.exact tag)).Concludes answers me past
      (fun b _ => b.id = id) fun e past' => me.Refused settings answers past' id e := by
  refine Request.concludes_write ?_
  intro t now past' sound moved
  refine ⟨fun b hb => Store.updateFilter_id sound hb, ?_⟩
  intro error he
  rcases Store.updateFilter_error sound he with failure | rfl | rfl
  · exact .denied (.of_failure moved failure)
  · exact .denied .missing
  · exact .denied .conflict

theorem concludes_submit {b : Blueprint} (hid : b.id = id) (submits : me.call.submits = true) :
    (submit b).Concludes answers me past (fun _ _ => True)
      fun e past' => me.Refused settings answers past' id e := by
  subst hid
  refine Request.concludes_ite (fun _ => Request.concludes_fail (.denied .submitted)) fun _ => ?_
  refine Request.concludes_act_bind fun time past₁ _ => ?_
  refine Request.concludes_act_bind fun outputId past₂ _ => ?_
  have stores : (Request.write fun s t => s.addOutput t (.ofBlueprint outputId b time)).Concludes
      answers me past₂ (fun _ _ => True) fun e past' => me.Refused settings answers past' b.id e := by
    refine Request.concludes_write ?_
    intro t now past' _ moved
    refine ⟨fun _ _ => trivial, ?_⟩
    intro error he
    rcases Store.addOutput_error he with failure | rfl
    · exact .denied (.of_failure moved failure)
    · exact .denied (.taken _ submits)
  refine stores.bind fun _ past₃ _ _ => ?_
  refine (concludes_updateFilter _ b.etag).bind fun submitted past₄ _ _ => ?_
  refine Request.concludes_act_bind fun _ past₅ _ => ?_
  refine Request.concludes_act_bind fun sent past₆ _ => ?_
  cases sent with
  | ok _ => exact Request.concludes_pure trivial
  | error _ =>
    exact Request.concludes_act_bind fun _ _ _ => Request.concludes_pure trivial

/-- An update is refused before it writes, and of its failures only the move tells of dimensions. -/
theorem concludes_revision {u : BlueprintUpdate} {andSubmit : Bool} {selector : Selector}
    (hcall : me.call = .update id u andSubmit selector) :
    (revision settings id u selector me.caller).Concludes answers me past (fun p _ => p.1.id = id)
      fun e past' => me.Refused settings answers past' id e := by
  refine (concludes_read selector).bind ?_
  rintro current past₁ - ⟨saw, hid, accepted⟩
  refine Request.concludes_ite (fun offends => Request.concludes_fail ?_) fun permitted => ?_
  · have offends : u.forbidden current ≠ [] := by simpa using offends
    exact .denied (.forbidden hcall saw hid offends)
  have permitted : u.forbidden current = [] := by simpa using permitted
  refine (Request.concludes_ofExcept (p := fun events _ => u.validEvents = .ok events)
    (fun events h => h) ?_).bind ?_
  · intro e he
    have malformed : ∃ detail, e = .badRequest detail := by
      unfold BlueprintUpdate.validEvents at he
      cases judged : u.events.mapM EventRequest.validate with
      | ok events => simp [judged, Except.mapError] at he
      | error error =>
        rw [judged] at he
        exact ⟨_, (Except.error.inj he).symm⟩
    obtain ⟨detail, rfl⟩ := malformed
    exact .denied (.malformed hcall he)
  intro events past₂ hs₂ valid
  cases other : u.newVersion? current with
  | none => exact Request.concludes_pure hid
  | some version =>
    refine ((concludes_moveTo hid version).weaken (fun _ _ _ h => h) ?_).bind
      fun move _ _ _ => Request.concludes_pure hid
    rintro e past₃ hs₃ (denied | ⟨editable, told, learns⟩)
    · exact .denied denied
    · exact .exposes ⟨u, andSubmit, selector, current, version, hcall, saw.mono (hs₂.trans hs₃), hid,
        accepted, ⟨permitted, ⟨events, valid⟩, other, editable, told⟩, learns⟩

theorem concludes_revise {current : Blueprint} (hid : current.id = id) (change : BlueprintChange) :
    (revise id current change).Concludes answers me past (fun b _ => b.id = id)
      fun e past' => me.Refused settings answers past' id e :=
  Request.concludes_ite (fun _ => Request.concludes_pure hid)
    fun _ => concludes_updateFilter change current.etag

/-- Why an update fails: either the client is denied the blueprint, or it was told why the blueprint may
not move. -/
theorem concludes_update {u : BlueprintUpdate} {andSubmit : Bool} {selector : Selector}
    (hcall : me.call = .update id u andSubmit selector) :
    (update settings id u andSubmit selector me.caller).Concludes answers me past (fun _ _ => True)
      fun e past' => me.Refused settings answers past' id e := by
  rw [update_eq]
  refine (concludes_revision hcall).bind ?_
  rintro ⟨current, change⟩ past₁ - hid
  refine Request.concludes_ite (fun _ => Request.concludes_fail ?_) fun _ => ?_
  · change me.Refused settings answers past₁ id (.alreadySubmitted current.id)
    rw [show current.id = id from hid]
    exact .denied .submitted
  · refine (concludes_revise hid change).bind ?_
    intro updated past₂ _ hid'
    refine Request.concludes_ite (fun submits => ?_) fun _ => Request.concludes_pure trivial
    exact concludes_submit hid' (by rw [hcall]; exact submits)

/-- What comes after a reading by the rule of visibility: an anonymous client gets there only if it may
see what it read. -/
theorem fails_get {selector : Selector} (looks : me.call.looks = true)
    (goOn : Blueprint → Request ServiceError α) : (get id selector me.caller >>= goOn).Fails answers me
      past fun e past' => me.Refused settings answers past' id e := by
  refine (concludes_read selector).then_then_fails ?_
  rintro b past₁ - ⟨saw, hid, -⟩
  have seeing {past₂ : List Moment} (hs : past₁ <:+ past₂) (sees : me.Sees answers past₂ b)
      (r : Request ServiceError α) :
      r.Fails answers me past₂ fun e past' => me.Refused settings answers past' id e :=
    Request.fails_of r fun e past₃ hs₃ =>
      .sees looks ((saw.mono hs).mono hs₃) hid (sees.mono hs₃)
  have failing {error : ServiceError} {past₂ : List Moment}
      (refused : me.Refused settings answers past₂ id error) :
      ((Request.fail error : Request ServiceError Blueprint) >>= goOn).Fails answers me past₂
        fun e past' => me.Refused settings answers past' id e :=
    (Request.concludes_fail (p := fun _ _ => False) refused).then_fails fun _ _ _ never => never.elim
  by_cases visible : (b.isPublished || me.caller.authenticated) = true
  · simp only [if_pos visible]
    refine seeing (List.suffix_refl _) (fun _ => ?_) _
    rcases Bool.or_eq_true_iff.mp visible with published | known
    · exact Or.inl published
    · exact Or.inr (Or.inl known)
  · simp only [if_neg visible]
    refine (Request.concludes_ask _).then_then_fails ?_
    rintro (error | version) past₂ hs heard
    · by_cases missing : error.isNotFound = true
      · simp only [if_pos missing, hid]
        exact failing (.denied .missing)
      · simp only [if_neg missing]
        exact failing (.denied (.version heard))
    · exact seeing hs (fun _ => Or.inr (Or.inr ⟨version, heard⟩)) _

end Blueprints

/-- A call that looks at its blueprint gets it first, by the rule of visibility; a patch is measured
before. -/
theorem ServiceCall.exists_looking (settings : Settings) (caller : Caller) {call : ServiceCall}
    {selector : Selector} (looks : call.looks = true) (target : call.target? = some (id, selector)) :
    ∃ (check : Except ServiceError Unit) (goOn : Blueprint → Request ServiceError Answer),
      call.request settings caller =
        (Request.ofExcept check >>= fun _ => Blueprints.get id selector caller >>= goOn) ∧
      ∀ e, check = .error e → ∃ name operations error, call = .patch id name operations selector ∧
        Patch.checkSize settings.maxPatchOptions operations = .error error ∧ e = .patch error := by
  have unmeasured {goOn : Blueprint → Request ServiceError Answer}
      (same : call.request settings caller = Blueprints.get id selector caller >>= goOn) :
      ∃ (check : Except ServiceError Unit) (goOn : Blueprint → Request ServiceError Answer),
        call.request settings caller =
          (Request.ofExcept check >>= fun _ => Blueprints.get id selector caller >>= goOn) ∧
        ∀ e, check = .error e → ∃ name operations error, call = .patch id name operations selector ∧
          Patch.checkSize settings.maxPatchOptions operations = .error error ∧ e = .patch error :=
    ⟨.ok (), goOn, same, by simp⟩
  cases call with
  | create | update | output | updateOutput | addEvent => simp [ServiceCall.looks] at looks
  | get => cases target; exact unmeasured rfl
  | dimensions => cases target; exact unmeasured (bind_assoc ..)
  | patch id' name operations selector' =>
    cases target
    refine ⟨_, _, by simp only [request, Selections.patch, bind_assoc]; rfl, ?_⟩
    intro e he
    cases judged : Patch.checkSize settings.maxPatchOptions operations with
    | ok u => simp [judged, Except.mapError] at he
    | error error =>
      rw [judged] at he
      exact ⟨name, operations, error, rfl, judged, (Except.error.inj he).symm⟩
  | _ =>
    cases target
    simp only [request, Selections.get, Selections.options, Selections.option, Selections.add,
      Selections.remove, Selections.addOption, Selections.removeOption, bind_assoc] at unmeasured ⊢
    exact unmeasured rfl

/-- Why the call of a client about a blueprint fails, whatever else happens. -/
theorem ServiceCall.fails_request {selector : Selector}
    (target : me.call.target? = some (id, selector)) :
    (me.call.request settings me.caller).Fails answers me past
      fun e past' => me.Refused settings answers past' id e := by
  cases looks : me.call.looks with
  | true =>
    obtain ⟨check, goOn, same, judged⟩ := exists_looking settings me.caller looks target
    rw [same]
    refine (Request.concludes_ofExcept (p := fun _ _ => True) (fun _ _ => trivial) ?_).then_fails ?_
    · intro e he
      obtain ⟨name, operations, error, asked, oversized, rfl⟩ := judged e he
      exact .denied (.oversized asked oversized)
    · intro _ _ _ _
      exact Blueprints.fails_get looks goOn
  | false =>
    cases hcall : me.call with
    | update id' u andSubmit selector' =>
      rw [hcall] at target
      cases target
      exact (Blueprints.concludes_update hcall).then_fails fun _ _ _ _ => Request.fails_pure _
    | create | output | updateOutput | addEvent => simp [hcall, ServiceCall.target?] at target
    | _ => simp [hcall, ServiceCall.looks] at looks

/-- Every error that a call about a blueprint ends with in a run. -/
theorem Run.refused {start : World} {s : Server} (run : Run settings answers start past s)
    (sound : ∀ m ∈ past, m.before.store.Sound) {task : Task} (sent : task ∈ s.tasks)
    {selector : Selector} (target : task.client.call.target? = some (id, selector)) {w : World}
    (failed : task.step = .done (.error e) w) :
    task.client.Refused settings answers past id e := by
  obtain ⟨me, step⟩ := task
  obtain rfl : step = .done (.error e) w := failed
  obtain ⟨past₀, now, hs, refused⟩ :=
    run.pends sound (fun _ now hnow => ServiceCall.fails_request target now hnow) sent
  exact (refused e rfl).mono hs

end DatasetFilters
