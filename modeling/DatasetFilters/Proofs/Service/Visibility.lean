import DatasetFilters.Proofs.Service.Alone
import DatasetFilters.Proofs.Service.Course
import DatasetFilters.Proofs.Service.Denial

namespace DatasetFilters

section

variable {settings : Settings} {answers : Nat → (q : Query) → q.Reply → Prop} {me : Client}
  {past : List Moment} {start : World} {s : Server}

/-- The moment changed neither documents nor messages. -/
structure Moment.Rests (m : Moment) : Prop where
  filters : m.after.store.backend.filters = m.before.store.backend.filters
  outputs : m.after.store.backend.outputs = m.before.store.backend.outputs
  channel : m.after.channel = m.before.channel

/-- The client found the blueprint stored before anything had changed on its account. -/
def Client.Found (me : Client) (past : List Moment) (b : Blueprint) : Prop :=
  ∃ m earlier, (m :: earlier) <:+ past ∧ m.mover = some me ∧ m.after.Stores b ∧
    ∀ m' ∈ m :: earlier, m'.mover = some me → m'.Rests

variable (answers) in
/-- What the client found under an id was not public, and while the client was there the catalog did
not tell about its dataset version as it tells everybody. -/
def Client.FindsHidden (me : Client) (past : List Moment) (id : String) : Prop :=
  ∀ b, me.Found past b → b.id = id → b.isPublished = false ∧ ¬Told answers me past b

theorem Client.Saw.found {b : Blueprint} (h : me.Saw past b)
    (rests : ∀ m ∈ past, m.mover = some me → m.Rests) : me.Found past b := by
  obtain ⟨m, hm, mover, stored⟩ := h
  obtain ⟨earlier, hs⟩ := suffix_of_mem hm
  exact ⟨m, earlier, hs, mover, stored, fun m' hm' => rests m' (hs.mem hm')⟩

theorem Client.FindsHidden.earlier {past' : List Moment} {id : String}
    (h : me.FindsHidden answers past' id) (hs : past <:+ past') :
    me.FindsHidden answers past id := by
  rintro b ⟨m, earlier, hm, found⟩ hid
  obtain ⟨hidden, untold⟩ := h b ⟨m, earlier, hm.trans hs, found⟩ hid
  refine ⟨hidden, ?_⟩
  rintro ⟨version, heard⟩
  exact untold ⟨version, heard.mono hs⟩

/-- Who finds a blueprint hidden and is unknown may not see it by a call that looks. -/
theorem Client.FindsHidden.not_sees {id : String} (h : me.FindsHidden answers past id)
    (rests : ∀ m ∈ past, m.mover = some me → m.Rests) (anonymous : me.caller.authenticated = false)
    (looks : me.call.looks = true) {b : Blueprint} (saw : me.Saw past b) (hid : b.id = id) :
    ¬me.Sees answers past b := by
  intro sees
  obtain ⟨hidden, untold⟩ := h b (saw.found rests) hid
  rcases sees looks with published | known | told
  · simp [hidden] at published
  · simp [anonymous] at known
  · exact untold told

/-- A call that looks at blueprints changes nothing of a hidden one for an anonymous caller: whatever
it does at a moment, it does to what it may see. -/
theorem Run.rests_of_hidden (fresh : start.Fresh) (run : Run settings answers start past s)
    (hash : Collisionless past) (anonymous : me.caller.authenticated = false)
    (looks : me.call.looks = true) {id : String} {selector : Selector}
    (target : me.call.target? = some (id, selector)) (hidden : me.FindsHidden answers past id) :
    ∀ m ∈ past, m.mover = some me → m.Rests := by
  obtain ⟨-, -, hmoments⟩ := run.sound_services fresh hash
  have sofar (past' : List Moment) (hs : past' <:+ past) :
      ∀ m ∈ past', m.mover = some me → m.Rests := by
    induction past' with
    | nil => simp
    | cons m earlier ih =>
      have before := ih ((List.suffix_cons m earlier).trans hs)
      intro m' hm' hmover
      rcases List.mem_cons.mp hm' with rfl | hm'
      · have unseen := hidden.earlier ((List.suffix_cons m' earlier).trans hs)
        cases hmoments m' earlier hs with
        | idle => exact ⟨rfl, rfl, rfl⟩
        | received => simp at hmover
        | own me' past now next hvalid hdeed =>
          obtain rfl := Option.some.inj hmover
          cases hdeed with
          | rests filters outputs channel => exact ⟨filters, outputs, channel⟩
          | works busy _ _ _ => simp [looks] at busy
          | creates b t version new => simp [target] at new
          | edits a x c t e saw follows sees _ _ _ _ _ _ _ =>
            exact absurd sees (unseen.not_sees before anonymous looks saw
              (follows.addressed id selector target))
      · exact before m' hm' hmover
  exact sofar past (List.suffix_refl past)

/-- Nor does it give anything of it. -/
theorem Run.hidden_from_lookers (fresh : start.Fresh) (run : Run settings answers start past s)
    (hash : Collisionless past) {task : Task} (sent : task ∈ s.tasks)
    (anonymous : task.client.caller.authenticated = false) (looks : task.client.call.looks = true)
    {id : String} {selector : Selector} (target : task.client.call.target? = some (id, selector))
    (hidden : task.client.FindsHidden answers past id) (a : Answer) (w : World) :
    task.step ≠ .done (.ok a) w := by
  intro hdone
  have rests := run.rests_of_hidden fresh hash anonymous looks target hidden
  obtain ⟨-, htasks, -⟩ := run.sound_services fresh hash
  have waits := htasks task sent
  rw [hdone] at waits
  obtain ⟨past₀, hs, hpost⟩ := waits
  obtain ⟨id', selector', target', tag, dataset, b, saw, -, sees, hid, -⟩ := (hpost a rfl).reached looks
  rw [target, Option.some.injEq, Prod.mk.injEq] at target'
  exact (hidden.earlier hs).not_sees (fun m hm => rests m (hs.mem hm)) anonymous looks saw
    (hid.trans target'.1.symm) sees

/-- An update that succeeds, or changes anything on the way, has passed for a blueprint that was
there. -/
theorem Run.update_cleared (fresh : start.Fresh) (run : Run settings answers start past s)
    (hash : Collisionless past) {task : Task}
    (sent : task ∈ s.tasks) {id : String} {u : BlueprintUpdate} {andSubmit : Bool}
    {selector : Selector} (call : task.client.call = .update id u andSubmit selector) :
    (∀ a w, task.step = .done (.ok a) w → task.client.Cleared settings answers past) ∧
      ∀ m ∈ past, m.mover = some task.client →
        m.Rests ∨ task.client.Cleared settings answers past := by
  obtain ⟨-, htasks, hmoments⟩ := run.sound_services fresh hash
  constructor
  · intro a w hdone
    have waits := htasks task sent
    rw [hdone] at waits
    obtain ⟨past₀, hs, hpost⟩ := waits
    exact (hpost a rfl).cleared.mono hs
  · intro m hm hmover
    obtain ⟨earlier, hs⟩ := suffix_of_mem hm
    have grown := (List.suffix_cons m earlier).trans hs
    cases hmoments m earlier hs with
    | idle => exact Or.inl ⟨rfl, rfl, rfl⟩
    | received => simp at hmover
    | own me' past now next hvalid hdeed =>
      obtain rfl := Option.some.inj hmover
      cases hdeed with
      | rests filters outputs channel => exact Or.inl ⟨filters, outputs, channel⟩
      | works _ cleared _ _ => exact Or.inr (cleared.mono grown)
      | creates b t version new => simp [call, ServiceCall.target?] at new
      | edits a x c t e _ _ _ cleared _ _ _ _ _ _ => exact Or.inr (cleared.mono grown)

section Sufficient

variable {answer : (q : Query) → World → σ → q.Reply × World × σ} {t t' : σ}

variable (answer t) in
/-- A submission succeeds where the store works and the blueprint can be edited. -/
theorem Blueprints.run_submit {w : World} {b z : Blueprint} (sound : w.store.Sound)
    (works : w.store.Works) (stored : w.Stores z) (hid : z.id = b.id) (htag : z.etag = b.etag)
    (editable : b.isSubmitted = false)
    (free : w.store.backend.find? .outputs (w.ids w.idsDrawn) = none) :
    ∃ c w', ((submit b) w).run answer t = (.ok c, w', t) ∧ c.id = b.id ∧
      c.dimensions = z.dimensions ∧
      (w'.store.backend.find? .outputs (w.ids w.idsDrawn)).isSome := by
  let time := w.clock w.readings
  let outputId := w.ids w.idsDrawn
  let w₁ := { w with readings := w.readings + 1, idsDrawn := w.idsDrawn + 1 }
  obtain ⟨store, hadd, works₂, filters, added⟩ :=
    works.addOutput (w₁.clock w₁.readings) (o := .ofBlueprint outputId b time) free
  let w₂ := { w₁ with store, readings := w₁.readings + 1 }
  have adds : ((Request.write fun s t => s.addOutput t (.ofBlueprint outputId b time)) w₁).run
      answer t = (.ok _, w₂, t) := Request.run_write hadd
  have stored₂ : w₂.Stores z := (World.stores_of_filters_eq filters).mpr stored
  let change : BlueprintChange :=
    { state := some .submitted, outputId := some outputId, events := [⟨.created, time⟩] }
  obtain ⟨c, -, w₃, marks, hcid, hcdimensions, -, -, -, -, -, -, -, outputs, -, -⟩ :=
    Request.run_updateFilter answer t (sound.of_filters_eq filters) works₂ stored₂
      change
  rw [hid, htag] at marks
  let w₄ := { w₃ with counters := w₃.counters.increment .blueprintsSubmitted }
  let w₅ := { w₄ with channel := (w₄.channel.enqueue outputId).2 }
  have counts : ((Request.count .blueprintsSubmitted : Request ServiceError Unit) w₃).run answer t =
      (.ok (), w₄, t) := Request.run_count _
  have sends : ((Request.enqueue outputId : Request ServiceError _) w₄).run answer t =
      (.ok (w₄.channel.enqueue outputId).1, w₅, t) := Request.run_enqueue outputId
  -- what is done after the blueprint was marked does not concern the documents
  have submits : ∃ w', w'.store = w₃.store ∧ ((submit b) w).run answer t = (.ok c, w', t) := by
    unfold submit
    simp only [editable, Bool.false_eq_true, if_false]
    rw [Request.run_bind Request.run_now, Request.run_bind Request.run_drawId,
      Request.run_bind adds, Request.run_bind marks, Request.run_bind counts,
      Request.run_bind sends]
    cases (w₄.channel.enqueue outputId).1 with
    | ok u => exact ⟨w₅, rfl, rfl⟩
    | error e => exact ⟨{ w₅ with counters := w₅.counters.increment .dispatchFailures }, rfl, rfl⟩
  obtain ⟨w', same, submits⟩ := submits
  refine ⟨c, w', submits, hcid.trans hid, hcdimensions, ?_⟩
  rw [same, Backend.find?, Backend.documents, outputs]
  exact added

variable (answer t) in
theorem Blueprints.run_submitIf {w : World} {b z : Blueprint} {andSubmit : Bool}
    (sound : w.store.Sound) (works : w.store.Works) (stored : w.Stores z) (hid : z.id = b.id)
    (htag : z.etag = b.etag) (hdimensions : z.dimensions = b.dimensions)
    (editable : (andSubmit && b.isSubmitted) = false)
    (free : w.store.backend.find? .outputs (w.ids w.idsDrawn) = none) :
    ∃ c w', ((submitIf andSubmit b) w).run answer t = (.ok c, w', t) ∧ c.id = b.id ∧
      c.dimensions = b.dimensions ∧
      (andSubmit = true → (w'.store.backend.find? .outputs (w.ids w.idsDrawn)).isSome) := by
  cases andSubmit with
  | false => exact ⟨b, w, Request.run_pure _, rfl, rfl, by simp⟩
  | true =>
    obtain ⟨c, w', submits, hcid, hcdimensions, output⟩ :=
      run_submit answer t sound works stored hid htag editable free
    exact ⟨c, w', submits, hcid, hcdimensions.trans hdimensions, fun _ => output⟩

theorem Blueprints.state_of_run_moveTo {b : Blueprint} {version : UInt32} {caller : Caller}
    {w w' : World} {move : BlueprintChange}
    (h : ((moveTo settings b version caller) w).run answer t = (.ok move, w', t')) :
    move.state = none := by
  unfold moveTo at h
  cases hb : b.isSubmitted with
  | true => simp [hb, Request.fail, Step.run] at h
  | false =>
    simp only [hb, Bool.false_eq_true, if_false] at h
    obtain ⟨reply, w₁, t₁, -, h⟩ := Request.of_run_bind h
    obtain ⟨found, w₂, t₂, -, h⟩ := Request.of_run_bind h
    obtain ⟨-, w₃, t₃, -, h⟩ := Request.of_run_bind h
    rw [Request.run_pure, Prod.mk.injEq, Except.ok.injEq] at h
    rw [← h.1]

/-- An update that is permitted comes to what its move comes to, if it is one. -/
theorem Blueprints.run_revision {w w' : World} {b : Blueprint} {u : BlueprintUpdate}
    {selector : Selector} {caller : Caller} {events : List Event}
    {r : Except ServiceError BlueprintChange} (sound : w.store.Sound) (works : w.store.Works)
    (stored : w.Stores b) (accepted : selector.accepts b.etag = true) (permitted : u.forbidden b = [])
    (valid : u.validEvents = .ok events)
    (moved : ((match u.newVersion? b with
        | some version => moveTo settings b version caller
        | none => pure {} : Request ServiceError BlueprintChange)
      { w with store := w.store.touched }).run answer t = (r, w', t')) :
    ((revision settings b.id u selector caller) w).run answer t =
      (r.map fun move => (b, { move with events }), w', t') := by
  have reads := Request.run_read answer t (f := (·.getFilter b.id selector))
    (works.getFilter sound stored accepted)
  refine (Request.run_bind reads _).trans ?_
  simp only [permitted, List.isEmpty_nil, Bool.not_true, Bool.false_eq_true, if_false, valid]
  refine (Request.run_bind (Request.run_ofExcept _) _).trans ?_
  cases hversion : u.newVersion? b with
  | some version =>
    simp only [hversion] at moved ⊢
    cases r with
    | ok move => exact (Request.run_bind moved _).trans (Request.run_pure _)
    | error e => exact Request.run_bind_of_error moved _
  | none =>
    simp only [hversion] at moved ⊢
    cases r with
    | ok move => exact (Request.run_bind moved _).trans (Request.run_pure _)
    | error e => exact Request.run_bind_of_error moved _

/-- An update that passes over a store that works gives the blueprint to whoever sent it. -/
theorem Blueprints.run_update {w w' : World} {b : Blueprint} {u : BlueprintUpdate}
    {andSubmit : Bool} {selector : Selector} {caller : Caller} {events : List Event}
    {move : BlueprintChange} (sound : w.store.Sound) (works : w.store.Works) (stored : w.Stores b)
    (accepted : selector.accepts b.etag = true) (permitted : u.forbidden b = [])
    (valid : u.validEvents = .ok events) (editable : (andSubmit && b.isSubmitted) = false)
    (moved : ((match u.newVersion? b with
        | some version => moveTo settings b version caller
        | none => pure {} : Request ServiceError BlueprintChange)
      { w with store := w.store.touched }).run answer t = (.ok move, w', t'))
    (sound' : w'.store.Sound) (works' : w'.store.Works) (stored' : w'.Stores b)
    (free : w'.store.backend.find? .outputs (w'.ids w'.idsDrawn) = none) :
    ∃ c w'', ((update settings b.id u andSubmit selector caller) w).run answer t =
        (.ok c, w'', t') ∧ c.id = b.id ∧ c.dimensions = b.dimensions ∧
      (andSubmit = true → (w''.store.backend.find? .outputs (w'.ids w'.idsDrawn)).isSome) := by
  have state : move.state = none := by
    cases hversion : u.newVersion? b with
    | some version =>
      simp only [hversion] at moved
      exact state_of_run_moveTo moved
    | none =>
      simp only [hversion] at moved
      rw [Request.run_pure, Prod.mk.injEq, Except.ok.injEq] at moved
      rw [← moved.1]
  let change : BlueprintChange := { move with events }
  have revised := run_revision sound works stored accepted permitted valid moved
  have passes : ∃ c w'', ((revise b.id b change >>= submitIf andSubmit) w').run answer t' =
        (.ok c, w'', t') ∧ c.id = b.id ∧ c.dimensions = b.dimensions ∧
      (andSubmit = true → (w''.store.backend.find? .outputs (w'.ids w'.idsDrawn)).isSome) := by
    unfold revise
    by_cases empty : change.isEmpty = true
    · simp only [if_pos empty]
      exact run_submitIf answer t' sound' works' stored' rfl rfl rfl editable free
    · simp only [if_neg empty]
      obtain ⟨c, z, w₁, writes, hcid, hcdimensions, hcstate, sound₁, works₁, stored₁, hzid, hzetag,
        hzdimensions, outputs, ids, drawn⟩ :=
        Request.run_updateFilter answer t' sound' works' stored' change
      have kept : c.isSubmitted = b.isSubmitted := by
        rw [Blueprint.isSubmitted, hcstate, BlueprintChange.apply, state]
        rfl
      have free₁ : w₁.store.backend.find? .outputs (w₁.ids w₁.idsDrawn) = none := by
        rw [Backend.find?, Backend.documents, outputs, ids, drawn]
        exact free
      obtain ⟨c', w'', finished, hid, hdimensions, output⟩ :=
        run_submitIf answer t' sound₁ works₁ stored₁ hzid hzetag hzdimensions (kept ▸ editable) free₁
      rw [ids, drawn] at output
      rw [Request.run_bind writes]
      exact ⟨c', w'', finished, hid.trans hcid, hdimensions.trans hcdimensions, output⟩
  obtain ⟨c, w'', finished, hresult⟩ := passes
  refine ⟨c, w'', ?_, hresult⟩
  rw [update_eq]
  refine (Request.run_bind revised _).trans ?_
  simp only [editable, Bool.false_eq_true, if_false]
  exact finished

variable (answer) in
/-- What the catalog, asked from a world on, lacks of dimensions that are checked against a dataset
version, and how the check ends. -/
inductive Validation.Finds (limits : BatchLimits) (d : DatasetRef) (xs : List Dimension) (w : World)
    (t : σ) : ServiceError → World → σ → Prop
  | undeclared {declared : List VersionDimension} {names : List String} {w' : World} {t' : σ}
      (told : answer (.dimensions d) w t =
        ((Except.ok declared : CatalogReply (List VersionDimension)), w', t'))
      (lacking : names =
        (xs.map (·.name)).filter fun name => !(declared.map (·.name)).contains name)
      (some : names ≠ []) : Finds limits d xs w t (.incorrectDimensions names) w' t'
  | unconfirmed {declared : List VersionDimension} {before after : List Dimension} {x : Dimension}
      {confirmed : List Confirmation} {unknown : List String} {w₁ w₂ w' : World} {t₁ t₂ t' : σ}
      (told : answer (.dimensions d) w t =
        ((Except.ok declared : CatalogReply (List VersionDimension)), w₁, t₁))
      (declares : ∀ x ∈ xs, x.name ∈ declared.map (·.name)) (split : xs = before ++ x :: after)
      (passed : ((allOptions limits d before) w₁).run answer t₁ = (.ok (), w₂, t₂))
      (asked : answer (.options d x.name (Lookup.plan limits (Dimension.distinct x.options))) w₂ t₂ =
        ((Except.ok confirmed : CatalogReply (List Confirmation)), w', t'))
      (lacking : unknown = (Dimension.distinct x.options).filter (missing confirmed).contains)
      (some : unknown ≠ []) : Finds limits d xs w t (.incorrectOptions x.name unknown) w' t'

namespace Validation

variable {limits : BatchLimits} {d : DatasetRef} {xs : List Dimension} {w w' : World}
  {e : ServiceError}

theorem run_declared_ok {declared : List VersionDimension} (told : answer (.dimensions d) w t =
      ((Except.ok declared : CatalogReply (List VersionDimension)), w', t')) :
    ((Validation.declared d) w).run answer t = (.ok (declared.map (·.name)), w', t') := by
  have asks : ((Request.ask (.dimensions d) : Request ServiceError _) w).run answer t =
      (.ok (Except.ok declared : CatalogReply (List VersionDimension)), w', t') := by
    rw [Request.run_ask, told]
  exact Request.run_bind asks _

theorem undeclared_eq_nil {names : List String} (declares : ∀ x ∈ xs, x.name ∈ names) :
    ((xs.map (·.name)).filter fun name => !names.contains name) = [] := by
  refine List.filter_eq_nil_iff.mpr ?_
  intro name hname
  obtain ⟨x, hx, rfl⟩ := List.mem_map.mp hname
  simp [declares x hx]

/-- A check of options stops at the first dimension that has some which are not confirmed. -/
theorem run_allOptions_unconfirmed {before after : List Dimension} {x : Dimension}
    {confirmed : List Confirmation} {unknown : List String} {w₁ : World} {t₁ : σ}
    (passed : ((allOptions limits d before) w).run answer t = (.ok (), w₁, t₁))
    (asked : answer (.options d x.name (Lookup.plan limits (Dimension.distinct x.options))) w₁ t₁ =
      ((Except.ok confirmed : CatalogReply (List Confirmation)), w', t'))
    (lacking : unknown = (Dimension.distinct x.options).filter (missing confirmed).contains)
    (some : unknown ≠ []) :
    ((allOptions limits d (before ++ x :: after)) w).run answer t =
      (.error (.incorrectOptions x.name unknown), w', t') := by
  induction before generalizing w t with
  | nil =>
    obtain ⟨-, rfl, rfl⟩ : (.ok () : Except ServiceError Unit) = .ok () ∧ w = w₁ ∧ t = t₁ := by
      simpa only [allOptions, Request.run_pure, Prod.mk.injEq] using passed
    refine Request.run_bind_of_error ?_ _
    have chosen : Dimension.distinct x.options ≠ [] := by
      intro none
      rw [lacking, none] at some
      exact some rfl
    have asks : ((Request.ask (.options d x.name
        (Lookup.plan limits (Dimension.distinct x.options))) : Request ServiceError _) w).run answer t =
        (.ok (Except.ok confirmed : CatalogReply (List Confirmation)), w', t') := by
      rw [Request.run_ask, asked]
    unfold options
    simp only [List.isEmpty_iff, chosen, if_false]
    refine (Request.run_bind asks _).trans ?_
    have judged : verdict x.name (Dimension.distinct x.options) confirmed =
        .error (.incorrectOptions x.name unknown) := by
      unfold verdict
      rw [← lacking, if_neg (by simpa using some)]
    rw [Request.run_bind (Request.run_answered confirmed), judged]
    rfl
  | cons y before ih =>
    obtain ⟨u, w₂, t₂, first, rest⟩ := Request.of_run_bind passed
    exact (Request.run_bind first _).trans (ih rest)

/-- A check of dimensions ends with what the catalog lacks. -/
theorem run_dimensions_of_finds (finds : Finds answer limits d xs w t e w' t') :
    ((dimensions limits d xs) w).run answer t = (.error e, w', t') := by
  cases finds with
  | undeclared told lacking some =>
    have named : xs ≠ [] := by
      rintro rfl
      exact some lacking
    unfold dimensions
    simp only [List.isEmpty_iff, named, if_false]
    refine (Request.run_bind (run_declared_ok told) _).trans ?_
    rw [← lacking, if_neg some]
    rfl
  | unconfirmed told declares split passed asked lacking some =>
    have named : xs ≠ [] := by simp [split]
    unfold dimensions
    simp only [List.isEmpty_iff, named, if_false]
    refine (Request.run_bind (run_declared_ok told) _).trans ?_
    rw [undeclared_eq_nil declares, if_pos rfl, split]
    exact run_allOptions_unconfirmed passed asked lacking some

end Validation

/-- An update of whoever it is that gets as far as to the dimensions of a blueprint is told what
another version lacks of them. -/
theorem Blueprints.run_update_of_finds {w w₁ w' : World} {t₁ : σ} {b : Blueprint}
    {u : BlueprintUpdate} {andSubmit : Bool} {selector : Selector} {caller : Caller}
    {events : List Event} {version : UInt32} {found : Version} {e : ServiceError}
    (sound : w.store.Sound) (works : w.store.Works) (stored : w.Stores b)
    (accepted : selector.accepts b.etag = true) (permitted : u.forbidden b = [])
    (valid : u.validEvents = .ok events) (other : u.newVersion? b = some version)
    (editable : b.isSubmitted = false)
    (told : answer (.version (b.dataset.withVersion version) caller.authenticated)
      { w with store := w.store.touched } t = ((Except.ok found : CatalogReply Version), w₁, t₁))
    (finds : Validation.Finds answer settings.limits (b.dataset.withVersion version) b.dimensions w₁ t₁
      e w' t') :
    ((update settings b.id u andSubmit selector caller) w).run answer t = (.error e, w', t') := by
  have asks : ((Request.ask (.version (b.dataset.withVersion version) caller.authenticated) :
      Request ServiceError _) { w with store := w.store.touched }).run answer t =
      (.ok (Except.ok found : CatalogReply Version), w₁, t₁) := by rw [Request.run_ask, told]
  have stays : ((moveTo settings b version caller) { w with store := w.store.touched }).run answer t =
      (.error e, w', t') := by
    unfold moveTo
    simp only [editable, Bool.false_eq_true, if_false]
    refine (Request.run_bind asks _).trans ((Request.run_bind (Request.run_answered found) _).trans ?_)
    exact Request.run_bind_of_error (Validation.run_dimensions_of_finds finds) _
  have revised : ((revision settings b.id u selector caller) w).run answer t = (.error e, w', t') := by
    refine run_revision (r := .error e) sound works stored accepted permitted valid ?_
    simp only [other]
    exact stays
  rw [update_eq]
  exact Request.run_bind_of_error revised _

end Sufficient

/-- A call about a stored blueprint that does not look at it is an update. -/
theorem ServiceCall.exists_update {call : ServiceCall} {id : String} {selector : Selector}
    (target : call.target? = some (id, selector)) (busy : call.looks = false) :
    ∃ u andSubmit, call = .update id u andSubmit selector := by
  cases call with
  | update id' u andSubmit selector' =>
    rw [ServiceCall.target?, Option.some.injEq, Prod.mk.injEq] at target
    exact ⟨u, andSubmit, by rw [target.1, target.2]⟩
  | create | output | updateOutput | addEvent => simp [ServiceCall.target?] at target
  | _ => simp [ServiceCall.looks] at busy

variable (settings answers) in
/-- How far a client gets at a blueprint that it finds hidden. -/
structure Client.Confined (me : Client) (past : List Moment) (step : Step ServiceError Answer)
    (id : String) (selector : Selector) : Prop where
  /-- If the client gets an answer, or if anything changes on its account, then it sent an update that
  passed for a blueprint there. -/
  reached : ((∃ a w, step = .done (.ok a) w) ∨ ∃ m ∈ past, m.mover = some me ∧ ¬m.Rests) →
    ∃ u andSubmit b, me.call = .update id u andSubmit selector ∧ me.Saw past b ∧ b.id = id ∧
      selector.accepts b.etag = true ∧ u.Passes settings answers me past andSubmit b
  /-- An error denies the client the blueprint, or it answers an update by which the client was told of
  the dimensions of the blueprint. -/
  refused : ∀ e w, step = .done (.error e) w →
    me.Denied settings answers past id e ∨ me.Exposes settings answers past id e
  /-- A denial lists no names of dimensions and options, but for what the catalog itself says when it is
  asked about a dataset version. -/
  denied : ∀ e, me.Denied settings answers past id e →
    e.named = [] ∨ ∃ dataset error, e = .ofCatalog error ∧
      ((∃ authenticated, me.Heard answers past (.version dataset authenticated) (.error error)) ∨
        me.Heard answers past (.dimensions dataset) (.error error))
  /-- An update that passes over a store that works gets the blueprint, and its output made, like one of
  anybody else. -/
  obtained : ∀ {σ : Type} {answer : (q : Query) → World → σ → q.Reply × World × σ} {t t' : σ}
      {w w' : World} {b : Blueprint} {u : BlueprintUpdate} {andSubmit : Bool} {events : List Event}
      {move : BlueprintChange},
    w.store.Sound → w.store.Works → w.Stores b → b.id = id → selector.accepts b.etag = true →
    u.forbidden b = [] → u.validEvents = .ok events → (andSubmit && b.isSubmitted) = false →
    ((match u.newVersion? b with
        | some version => Blueprints.moveTo settings b version me.caller
        | none => pure {} : Request ServiceError BlueprintChange)
      { w with store := w.store.touched }).run answer t = (.ok move, w', t') →
    w'.store.Sound → w'.store.Works → w'.Stores b →
    w'.store.backend.find? .outputs (w'.ids w'.idsDrawn) = none →
    ∃ c w'', ((Blueprints.update settings id u andSubmit selector me.caller) w).run answer t =
        (.ok c, w'', t') ∧ c.id = id ∧ c.dimensions = b.dimensions ∧
      (andSubmit = true → (w''.store.backend.find? .outputs (w'.ids w'.idsDrawn)).isSome)
  /-- An update that is to move the blueprint to a version that the client may see is told which of the
  dimensions and options of the blueprint that version lacks. -/
  exposed : ∀ {σ : Type} {answer : (q : Query) → World → σ → q.Reply × World × σ} {t t₁ t' : σ}
      {w w₁ w' : World} {b : Blueprint} {u : BlueprintUpdate} {andSubmit : Bool} {events : List Event}
      {version : UInt32} {found : Version} {e : ServiceError},
    w.store.Sound → w.store.Works → w.Stores b → b.id = id → selector.accepts b.etag = true →
    u.forbidden b = [] → u.validEvents = .ok events → u.newVersion? b = some version →
    b.isSubmitted = false →
    answer (.version (b.dataset.withVersion version) me.caller.authenticated)
      { w with store := w.store.touched } t = ((Except.ok found : CatalogReply Version), w₁, t₁) →
    Validation.Finds answer settings.limits (b.dataset.withVersion version) b.dimensions w₁ t₁ e w' t' →
    ((Blueprints.update settings id u andSubmit selector me.caller) w).run answer t = (.error e, w', t')

/-- How an anonymous client gets at a hidden blueprint: by an update, which nobody asks whether it may
see what it updates. It gets the blueprint if the update passes, and where it does not it may be told
dimensions and options of the blueprint; all other calls tell it nothing of them and change nothing. -/
theorem Run.hidden_reached_just_by_updates (fresh : start.Fresh)
    (run : Run settings answers start past s) (hash : Collisionless past) {task : Task}
    (sent : task ∈ s.tasks) (anonymous : task.client.caller.authenticated = false) {id : String}
    {selector : Selector} (target : task.client.call.target? = some (id, selector))
    (hidden : task.client.FindsHidden answers past id) :
    task.client.Confined settings answers past task.step id selector where
  reached reached := by
    cases looks : task.client.call.looks with
    | true =>
      rcases reached with ⟨a, w, hdone⟩ | ⟨m, hm, hmover, changed⟩
      · exact absurd hdone
          (run.hidden_from_lookers fresh hash sent anonymous looks target hidden a w)
      · exact absurd (run.rests_of_hidden fresh hash anonymous looks target hidden m hm hmover) changed
    | false =>
      obtain ⟨u, andSubmit, hcall⟩ := ServiceCall.exists_update target looks
      obtain ⟨succeeds, moves⟩ := run.update_cleared fresh hash sent hcall
      have cleared : task.client.Cleared settings answers past := by
        rcases reached with ⟨a, w, hdone⟩ | ⟨m, hm, hmover, changed⟩
        · exact succeeds a w hdone
        · exact (moves m hm hmover).resolve_left changed
      obtain ⟨b, passed⟩ := cleared id u andSubmit selector hcall
      exact ⟨u, andSubmit, b, hcall, passed⟩
  refused e w failed := by
    obtain ⟨⟨-, covered⟩, -⟩ := run.sound_services fresh hash
    have sound : ∀ m ∈ past, m.before.store.Sound := fun m hm => (covered m hm).1.sound
    cases run.refused sound sent target failed with
    | denied h => exact Or.inl h
    | exposes h => exact Or.inr h
    | sees looks saw hid h =>
      have rests := run.rests_of_hidden fresh hash anonymous looks target hidden
      exact absurd h (hidden.not_sees rests anonymous looks saw hid)
  denied e h := h.named
  obtained sound works stored hid accepted permitted valid editable moved sound' works' stored' free := by
    rw [← hid]
    exact Blueprints.run_update sound works stored accepted permitted valid editable moved sound'
      works' stored' free
  exposed sound works stored hid accepted permitted valid other editable told finds := by
    rw [← hid]
    exact Blueprints.run_update_of_finds sound works stored accepted permitted valid other editable told
      finds

end

namespace Small

theorem finds_hidden (me : Client) :
    me.FindsHidden answers moments "f" := by
  rintro b ⟨m, earlier, hs, -, hb, -⟩ -
  refine ⟨(kept ⟨m, hs.mem List.mem_cons_self, hb⟩).2.2, ?_⟩
  rintro ⟨version, _, _, _, -, -, -, -, answered⟩
  simp [answers, reply] at answered

theorem stranger_moves : ∃ m ∈ moments, m.mover = some stranger ∧ ¬m.Rests := by
  obtain ⟨-, -, -, -, ⟨m, hm, mover, changed⟩, -⟩ := computed
  exact ⟨m, hm, mover, fun rests => changed rests.filters⟩

/-- The catalog of a version that is public and declares no dimensions. -/
def bare : (q : Query) → q.Reply
  | .version .. => .ok ⟨"j", publishedState⟩
  | .dimensions _ => .ok []
  | .options .. => .ok []
  | .dataset id => .error (.datasetNotFound id)
  | .forward .. => .error "unavailable"

/-- The stranger gets the blank blueprint submitted, and is told the dimension of the chosen one by
having it moved to a version that has no such dimension. -/
theorem stranger_reaches :
    (∃ u andSubmit b, stranger.call = .update "f" u andSubmit .any ∧ stranger.Saw moments b ∧
      b.id = "f" ∧ Selector.any.accepts b.etag = true ∧
      u.Passes settings answers stranger moments andSubmit b) ∧
    (∃ c w, ((Blueprints.update settings "f" {} true .any .anonymous) (storing blank)).run
        (fun q w (t : Unit) => (reply q, w, t)) () = (.ok c, w, ()) ∧
      c.id = "f" ∧ c.dimensions = blank.dimensions ∧
      (w.store.backend.find? .outputs "f").isSome) ∧
    ∃ w, ((Blueprints.update settings "f" { dataset := some { version := some 2 } } false .any
        .anonymous) (storing chosen)).run (fun q w (t : Unit) => (bare q, w, t)) () =
      (.error (.incorrectDimensions ["age"]), w, ()) := by
  obtain ⟨s, run, ⟨client, step⟩, sent, rfl⟩ := run answers_reply
  have confined := Run.hidden_reached_just_by_updates world_fresh run collisionless sent rfl rfl
    (finds_hidden stranger)
  have tag : blank.etag = blank.tag ∧ chosen.etag = chosen.tag := by decide +kernel
  have sound : (storing blank).store.Sound := storing_sound tag.1
  have works : (storing blank).store.Works := fun _ _ _ => rfl
  let read : World := { storing blank with store := (storing blank).store.touched }
  have sound' : read.store.Sound := sound.touched
  have works' : read.store.Works := works.touched
  have stored : read.Stores blank := (World.stores_of_filters_eq rfl).mpr (storing_stores blank)
  obtain ⟨c, w, updates, hid, hdimensions, output⟩ : ∃ c w,
      ((Blueprints.update settings "f" {} true .any .anonymous) (storing blank)).run
        (fun q w (t : Unit) => (reply q, w, t)) () = (.ok c, w, ()) ∧ c.id = "f" ∧
      c.dimensions = blank.dimensions ∧
      (true = true → (w.store.backend.find? .outputs "f").isSome) :=
    confined.obtained sound works (storing_stores blank) rfl rfl rfl rfl rfl rfl sound' works' stored
      rfl
  refine ⟨confined.reached (Or.inr stranger_moves), ⟨c, w, updates, hid, hdimensions, output rfl⟩, ?_⟩
  have told : Validation.Finds (fun q w (t : Unit) => (bare q, w, t)) settings.limits
      (dataset.withVersion 2) chosen.dimensions
      { storing chosen with store := (storing chosen).store.touched } ()
      (.incorrectDimensions ["age"])
      { storing chosen with store := (storing chosen).store.touched } () :=
    .undeclared rfl rfl (by simp)
  exact ⟨_, confined.exposed (storing_sound tag.2) (fun _ _ _ => rfl) (storing_stores chosen) rfl rfl
    rfl rfl rfl rfl rfl told⟩

end Small

end DatasetFilters
