import DatasetFilters.Proofs.Service.Writing

namespace DatasetFilters

variable {sent : ServiceCall → Prop} {id : String}

section

variable (sent : ServiceCall → Prop) (id : String)

/-- A dimension of a blueprint as it may come about if these calls are sent. -/
structure Dimension.Tidy (d : Dimension) : Prop where
  once : d.options.Nodup
  named : Text.isBlankText d.name = true →
    ∃ d' selector, sent (.addDimension id d' selector) ∧ d'.name = d.name
  chosen : "" ∈ d.options → ∃ selector, sent (.addOption id d.name "" selector)

structure TidyDimensions (ds : List Dimension) : Prop where
  names : (ds.map (·.name)).Nodup
  each : ∀ d ∈ ds, d.Tidy sent id

variable (s : Store)

/-- All selections that are stored, those of outputs too, are as they may come about. -/
structure Store.Tidy : Prop where
  filters : ∀ key b, s.filter? key = some b → TidyDimensions sent b.id b.dimensions
  outputs : ∀ key o, s.output? key = some o → TidyDimensions sent o.filterId o.dimensions

end

namespace Dimension

variable {d : Dimension}

theorem nodup_insert (h : d.options.Nodup) (ids : List String) : (d.insert ids).options.Nodup := by
  rw [insert_options]
  refine h.append (nodup_eraseDups _) ?_
  intro o known new
  simp [List.removeAll, List.mem_eraseDups, known] at new

theorem nodup_erase (h : d.options.Nodup) (ids : List String) : (d.erase ids).options.Nodup :=
  h.filter _

namespace Tidy

/-- Options of a list without blanks and repetitions can be those of any dimension. -/
theorem of_distinct (ids : List String) (name : String)
    (named : Text.isBlankText name = true →
      ∃ d' selector, sent (.addDimension id d' selector) ∧ d'.name = name) :
    (⟨name, distinct ids⟩ : Dimension).Tidy sent id where
  once := nodup_distinct ids
  named := named
  chosen empty := absurd rfl (mem_distinct.mp empty).2

/-- Inserting options keeps a dimension tidy, if the empty option was asked for. -/
theorem insert (h : d.Tidy sent id) {ids : List String}
    (chosen : "" ∈ ids → ∃ selector, sent (.addOption id d.name "" selector)) :
    (d.insert ids).Tidy sent id where
  once := nodup_insert h.once ids
  named := h.named
  chosen empty := (mem_insert.mp empty).elim h.chosen chosen

theorem erase (h : d.Tidy sent id) (ids : List String) : (d.erase ids).Tidy sent id where
  once := nodup_erase h.once ids
  named := h.named
  chosen empty := h.chosen (mem_erase.mp empty).1

end Tidy

end Dimension

/-- A patch drops the empty option. -/
theorem Selections.empty_not_mem_operands (o : PatchOperation) : "" ∉ operands o := by
  intro h
  have blank : Text.isBlankText "" = true := by decide
  have kept := (List.mem_filter.mp (Dimension.mem_distinct.mp h).1).2
  simp [blank] at kept

/-- Creation makes selections normal, whatever it is sent. -/
theorem Blueprints.tidy_of_normalise {seen : List String} {ds ds' : List Dimension}
    (h : normalise seen ds = .ok ds') : TidyDimensions sent id ds' := by
  refine ⟨(normalise_distinct h).1, ?_⟩
  induction ds generalizing seen ds' with
  | nil =>
    obtain rfl := Except.ok.inj h
    simp
  | cons d ds ih =>
    have visible : Text.isBlankText d.name = false := by
      refine Bool.eq_false_iff.mpr fun blank => ?_
      rw [normalise_cons, if_pos blank] at h
      simp at h
    obtain ⟨-, rest, normal, rfl⟩ := normalise_cons_ok h
    refine List.forall_mem_cons.mpr ⟨.of_distinct d.options d.name ?_, ih normal⟩
    simp [visible]

/-- What an edit that a call asks for makes of a dimension. -/
theorem TidyDimensions.each_of_asks {call : ServiceCall} {e : FilterEdit} {b c : Blueprint}
    (h : TidyDimensions sent id b.dimensions) (known : sent call) (asks : call.Asks id e)
    (applied : e.apply b = .ok c) : ∀ d ∈ c.dimensions, d.Tidy sent id := by
  intro d' hd
  -- the edits of options, on one dimension by its name
  have inserts {name : String} {options : List String}
      (edited : b.modifyDimension? name (·.insert options) = some c)
      (chosen : "" ∈ options → ∃ selector, sent (.addOption id name "" selector)) :
      d'.Tidy sent id := by
    rw [FilterEdit.modifyDimension?_eq edited] at hd
    rcases Blueprint.mem_modifyFirst hd with old | ⟨d, old, rfl, rfl⟩
    · exact h.each d' old
    · exact (h.each d old).insert chosen
  have erases {name : String} {options : List String}
      (edited : b.modifyDimension? name (·.erase options) = some c) : d'.Tidy sent id := by
    rw [FilterEdit.modifyDimension?_eq edited] at hd
    rcases Blueprint.mem_modifyFirst hd with old | ⟨d, old, rfl, rfl⟩
    · exact h.each d' old
    · exact (h.each d old).erase options
  cases asks with
  | addDimension _ d selector =>
    rw [FilterEdit.apply_addDimension applied] at hd
    rcases Blueprint.mem_upsertDimension hd with old | ⟨name, options⟩
    · exact h.each d' old
    · have tidy : (⟨d.name, Dimension.distinct d.options⟩ : Dimension).Tidy sent id :=
        .of_distinct d.options d.name fun _ => ⟨d, selector, known, rfl⟩
      obtain ⟨name', options'⟩ := d'
      obtain rfl : name' = d.name := name
      obtain rfl : options' = Dimension.distinct d.options := options
      exact tidy
  | removeDimension _ name selector =>
    rw [FilterEdit.apply_removeDimension applied] at hd
    exact h.each d' (List.mem_of_mem_filter hd)
  | addOption _ name o selector =>
    refine inserts (FilterEdit.apply_addOptions applied) fun empty => ?_
    rw [← List.mem_singleton.mp empty] at known
    exact ⟨selector, known⟩
  | removeOption _ name o selector => exact erases (FilterEdit.apply_removeOptions applied)
  | add _ name selector ho adds d =>
    refine inserts (FilterEdit.apply_addOptions applied) fun empty => ?_
    exact absurd (List.mem_of_mem_filter empty) (Selections.empty_not_mem_operands _)
  | remove _ name selector ho removes => exact erases (FilterEdit.apply_removeOptions applied)

/-- An edit that a call asks for keeps dimensions tidy. -/
theorem TidyDimensions.apply {e : FilterEdit} {b c : Blueprint} {call : ServiceCall}
    (h : TidyDimensions sent id b.dimensions) (known : sent call)
    (asked : (∃ x, e = .change x) ∨ call.Asks id e) (applied : e.apply b = .ok c) :
    TidyDimensions sent id c.dimensions := by
  rcases asked with ⟨x, rfl⟩ | asks
  · rw [FilterEdit.apply_change applied]
    exact h
  · refine ⟨?_, h.each_of_asks known asks applied⟩
    obtain ⟨sel, shows⟩ := Blueprint.exists_shows h.names
    obtain ⟨sel', -, shows'⟩ := FilterEdit.shows_apply applied shows
    exact shows'.names_eq ▸ sel'.distinct

namespace Store.Tidy

variable {s s' : Store}

theorem of_documents_eq (h : s.Tidy sent) (filters : s'.backend.filters = s.backend.filters)
    (outputs : s'.backend.outputs = s.backend.outputs) : s'.Tidy sent where
  filters key b hb := h.filters key b (filter?_of_filters_eq filters key ▸ hb)
  outputs key o ho := h.outputs key o (output?_of_outputs_eq outputs key ▸ ho)

theorem keeping (h : s.Tidy sent) (t : Instant) {b : Blueprint}
    (hb : TidyDimensions sent b.id b.dimensions) : (s.keeping t b).Tidy sent where
  filters key x hx := by
    rw [filter?_keeping] at hx
    split at hx
    · obtain rfl := Option.some.inj hx
      exact hb
    · exact h.filters key x hx
  outputs key o ho := h.outputs key o (output?_of_outputs_eq rfl key ▸ ho)

theorem puttingOutput (h : s.Tidy sent) (t : Instant) (key : String) {o : Output}
    (ho : TidyDimensions sent o.filterId o.dimensions) : (s.puttingOutput t key o).Tidy sent where
  filters key b hb := h.filters key b (filter?_of_filters_eq rfl key ▸ hb)
  outputs key' o' ho' := by
    rw [output?_puttingOutput] at ho'
    split at ho'
    · obtain rfl := Option.some.inj ho'
      exact ho
    · exact h.outputs key' o' ho'

end Store.Tidy

/-- Whatever a client writes leaves the store tidy. -/
theorem Client.Writes.tidy {me : Client} {own : List Moment} {now next : World}
    (h : me.Writes own now next) (known : sent me.call) (sound : now.store.Sound)
    (hnow : now.store.Tidy sent) (hown : ∀ m ∈ own, m.after.store.Tidy sent) :
    next.store.Tidy sent := by
  cases h with
  | rests filters outputs => exact hnow.of_documents_eq filters outputs
  | creates b t named normal kept =>
    rw [kept]
    exact hnow.keeping t (Blueprints.tidy_of_normalise normal)
  | edits id tag e asked takes =>
    obtain ⟨y, c, hy, -, applied, ⟨-, rfl⟩ | ⟨-, t, rfl⟩⟩ := takes
    · exact hnow.of_documents_eq rfl rfl
    · have hid : y.id = id := sound.id_eq hy
      have edited := (hnow.filters id y hy).apply known (hid ▸ asked) applied
      refine hnow.keeping t ?_
      change TidyDimensions sent c.id c.dimensions
      rw [(FilterEdit.apply_id_etag applied).1]
      exact edited
  | makes b o t shown same kept =>
    obtain ⟨m, hm, x, stored, hid, hdimensions⟩ := shown
    rw [kept]
    refine hnow.puttingOutput t o.id ?_
    rw [same.1, same.2, ← hid, ← hdimensions]
    exact (hown m hm).filters x.id x stored
  | tends id o o' t stored same kept =>
    rw [kept]
    refine hnow.puttingOutput t id ?_
    have filterId : o'.filterId = o.filterId := (congrArg Output.filterId same :)
    have dimensions : o'.dimensions = o.dimensions := (congrArg Output.dimensions same :)
    rw [filterId, dimensions]
    exact hnow.outputs id o stored

section

variable {settings : Settings} {answers : Nat → (q : Query) → q.Reply → Prop} {start : World}
  {past : List Moment} {s : Server}

/-- Selections stay as they may come about by the calls of a run. -/
theorem Run.keeps_tidy (sound : start.store.Sound) (hstart : start.store.Tidy sent)
    (run : Run settings answers start past s) (known : ∀ task ∈ s.tasks, sent task.client.call) :
    s.world.store.Tidy sent := by
  have so_far {past' : List Moment} {s' : Server} (run' : Run settings answers start past' s') :
      past' <:+ past → s'.world.store.Tidy sent ∧ ∀ m ∈ past', m.after.store.Tidy sent := by
    induction run' with
    | start => exact fun _ => ⟨hstart, by simp⟩
    | @next past' s' s'' mover run' move ih =>
      intro hs
      obtain ⟨hnow, earlier⟩ := ih ((List.suffix_cons _ _).trans hs)
      have last : s''.world.store.Tidy sent := by
        cases mover with
        | none =>
          have same : s''.world.store = s'.world.store := move.ofReceiver.store
          exact same ▸ hnow
        | some me =>
          obtain ⟨step, here⟩ := run.placed.2 _ (hs.mem List.mem_cons_self) me rfl
          have writes : me.Writes (me.own past') s'.world s''.world := run.written sound hs rfl
          exact writes.tidy (known _ (List.mem_of_getElem? here)) (run'.struck sound).1 hnow
            fun m hm => earlier m (List.mem_of_mem_filter hm)
      exact ⟨last, List.forall_mem_cons.mpr ⟨last, earlier⟩⟩
  exact (so_far run (List.suffix_refl past)).1

end

theorem Blueprint.name_mem_upsertDimension (b : Blueprint) (d : Dimension) :
    d.name ∈ (b.upsertDimension d).dimensions.map (·.name) := by
  have names (ds : List Dimension) :
      (modifyFirst d.name (fun old => { old with options := d.options }) ds).map (·.name) =
        ds.map (·.name) := by
    induction ds with
    | nil => rfl
    | cons first rest ih =>
      rw [modifyFirst]
      split
      · rfl
      · rw [List.map_cons, List.map_cons, ih]
  unfold upsertDimension modifyDimension?
  by_cases found : (b.dimension? d.name).isSome = true
  · rw [if_pos found, Option.getD_some, names]
    obtain ⟨old, hold⟩ := Option.isSome_iff_exists.mp found
    exact List.mem_map.mpr
      ⟨old, List.mem_of_find?_eq_some hold, by simpa using List.find?_some hold⟩
  · rw [if_neg found, Option.getD_none]
    simp

section

variable {answer : (q : Query) → World → σ → q.Reply × World × σ} {t : σ} {w : World} {b : Blueprint}
  {selector : Selector} {caller : Caller} {name : String} {w' : World} {t' : σ} {settings : Settings}

variable (answer t w b selector caller name w' t') in
/-- Nothing stands in the way of an edit of this dimension of a stored blueprint: the store works, the
blueprint can be edited and the caller may see it under its selector, and the catalog declares the
dimension to it while nobody else writes. -/
structure World.Admits : Prop where
  sound : w.store.Sound
  works : w.store.Works
  stored : w.Stores b
  accepted : selector.accepts b.etag = true
  visible : (b.isPublished || caller.authenticated) = true
  editable : b.isSubmitted = false
  declared : ∃ ds : List VersionDimension,
    answer (.dimensions b.dataset) { w with store := w.store.touched } t =
      ((.ok ds : CatalogReply (List VersionDimension)), w', t') ∧ name ∈ ds.map (·.name)
  quiet : w'.store.backend.filters = w.store.backend.filters
  works' : w'.store.Works

/-- A declared dimension passes if there are no options to look up. -/
theorem Validation.run_dimension_of_declared (limits : BatchLimits) (d : DatasetRef)
    {ids : List String} (nothing : Dimension.distinct ids = []) {ds : List VersionDimension}
    (replied : answer (.dimensions d) w t = ((.ok ds : CatalogReply (List VersionDimension)), w', t'))
    (known : name ∈ ds.map (·.name)) :
    ((dimension limits d name ids) w).run answer t = (.ok (), w', t') := by
  have asks : ((Request.ask (.dimensions d) : Request ServiceError _) w).run answer t =
      (.ok (.ok ds : CatalogReply (List VersionDimension)), w', t') := by
    rw [Request.run_ask, replied]
  have declares : ((declared d) w).run answer t = (.ok (ds.map (·.name)), w', t') :=
    (Request.run_bind asks _).trans rfl
  rw [dimension, Request.run_bind declares, List.contains_iff_mem.mpr known]
  simp only [Bool.not_true, Bool.false_eq_true, if_false, options, nothing, List.isEmpty_nil, if_true]
  rfl

namespace World.Admits

variable (h : w.Admits answer t b selector caller name w' t')
include h

theorem run_get : ((Blueprints.get b.id selector caller) w).run answer t =
    (.ok b, { w with store := w.store.touched }, t) := by
  have reads := Request.run_read (f := (·.getFilter b.id selector)) answer t
    (h.works.getFilter h.sound h.stored h.accepted)
  rw [Blueprints.get, Request.run_bind reads, if_pos h.visible]
  rfl

theorem run_editable (w : World) (t : σ) :
    ((Selections.ensureEditable b) w).run answer t = (.ok (), w, t) := by
  rw [Selections.ensureEditable, h.editable]
  rfl

theorem run_validation {ids : List String} (nothing : Dimension.distinct ids = []) :
    ((Validation.dimension settings.limits b.dataset name ids)
      { w with store := w.store.touched }).run answer t = (.ok (), w', t') := by
  obtain ⟨ds, replied, known⟩ := h.declared
  exact Validation.run_dimension_of_declared settings.limits b.dataset nothing replied known

/-- An edit that makes a difference to the tag is written. -/
theorem run_edit {e : FilterEdit} {c : Blueprint} (applied : e.apply b = .ok c)
    (differs : c.tag ≠ b.etag) : ∃ z w'',
      ((Request.write fun s now => Store.tagOnly (s.modifyFilter now b.id (.exact b.etag) e.apply))
        w').run answer t' = (.ok z.etag, w'', t') ∧
      w''.Stores z ∧ z.id = b.id ∧ z.dimensions = c.dimensions := by
  have stored : w'.Stores b := (World.stores_of_filters_eq h.quiet).mpr h.stored
  have written := h.works'.modifyFilter (h.sound.of_filters_eq h.quiet) stored applied
    (w'.clock w'.readings)
  rw [if_neg differs] at written
  let z := w'.store.restamped (w'.clock w'.readings) c
  have told : Store.tagOnly (w'.store.modifyFilter (w'.clock w'.readings) b.id (.exact b.etag)
      e.apply) = (.ok z.etag, w'.store.keeping (w'.clock w'.readings) z) := by
    rw [written]
    rfl
  exact ⟨z, _, Request.run_write told, Store.filter?_keeping_self ..,
    (FilterEdit.apply_id_etag applied).1, rfl⟩

/-- The empty option is added like any other, and not even looked up. -/
theorem run_addOption {d : Dimension} (found : b.dimension? name = some d) (new : d.has "" = false)
    (differs : (b.withOptions name (d.insert [""]).options).tag ≠ b.etag) : ∃ z w'',
      ((Selections.addOption settings b.id name "" selector caller) w).run answer t =
        (.ok z.etag, w'', t') ∧ w''.Stores z ∧ z.id = b.id ∧
      z.dimension? name = some (d.insert [""]) := by
  obtain ⟨z, w'', writes, stored, hid, hdimensions⟩ :=
    h.run_edit (FilterEdit.apply_addOptions_eq h.editable found [""]) differs
  have finds : ((Selections.find b name) { w with store := w.store.touched }).run answer t =
      (.ok d, { w with store := w.store.touched }, t) := by
    rw [Selections.find, found]
    rfl
  refine ⟨z, w'', ?_, stored, hid, ?_⟩
  · rw [Selections.addOption, Request.run_bind h.run_get, Request.run_bind finds,
      Request.run_bind (h.run_editable _ _), new]
    exact (Request.run_bind (h.run_validation (by decide)) _).trans writes
  · have found' := Blueprint.dimension?_withOptions found (d.insert [""]).options
    rw [Blueprint.dimension?, hdimensions]
    exact found'

/-- A dimension is added whatever its name is, if the catalog declares it. -/
theorem run_add (differs : (b.upsertDimension ⟨name, []⟩).tag ≠ b.etag) : ∃ z w'',
      ((Selections.add settings b.id ⟨name, []⟩ selector caller) w).run answer t =
        (.ok (⟨name, []⟩, z.etag), w'', t') ∧ w''.Stores z ∧ z.id = b.id ∧
      name ∈ z.dimensions.map (·.name) := by
  have applied : (FilterEdit.addDimension ⟨name, []⟩).apply b =
      .ok (b.upsertDimension ⟨name, []⟩) := by
    simp only [FilterEdit.apply, Store.ensureEditable, h.editable]
    rfl
  obtain ⟨z, w'', writes, stored, hid, hdimensions⟩ := h.run_edit applied differs
  have nothing : Dimension.distinct (Dimension.distinct []) = [] := by decide
  refine ⟨z, w'', ?_, stored, hid, ?_⟩
  · rw [Selections.add, Request.run_bind h.run_get, Request.run_bind (h.run_editable _ _)]
    refine (Request.run_bind (h.run_validation nothing) _).trans ?_
    exact Request.run_bind writes _
  · rw [hdimensions]
    exact b.name_mem_upsertDimension ⟨name, []⟩

end World.Admits

end

/-- The calls that came in. -/
def Server.Sent (s : Server) (call : ServiceCall) : Prop :=
  ∃ task ∈ s.tasks, task.client.call = call

/-- Whatever is called, by whomever and over whatever catalog, selections are stored in normal form, but
for blank names of dimensions that somebody added and the empty option that somebody added by itself.
These two do get stored wherever the caller may edit the blueprint, the catalog declares the dimension
and the tag tells the difference. -/
theorem Run.normal_but_for_what_is_let_through {settings : Settings}
    {answers : Nat → (q : Query) → q.Reply → Prop} {start : World} {past : List Moment} {s : Server}
    (fresh : start.Fresh) (bare : start.store.backend.outputs = [])
    (run : Run settings answers start past s) : s.world.store.Tidy s.Sent ∧
      ∀ {σ : Type} {answer : (q : Query) → World → σ → q.Reply × World × σ} {t t' : σ} {w' : World}
        {b : Blueprint} {selector : Selector} {caller : Caller} {name : String},
        s.world.Admits answer t b selector caller name w' t' →
        (∀ d, b.dimension? name = some d → d.has "" = false →
          (b.withOptions name (d.insert [""]).options).tag ≠ b.etag → ∃ z w'',
            ((Selections.addOption settings b.id name "" selector caller) s.world).run answer t =
              (.ok z.etag, w'', t') ∧ w''.Stores z ∧ z.id = b.id ∧
            z.dimension? name = some (d.insert [""])) ∧
        ((b.upsertDimension ⟨name, []⟩).tag ≠ b.etag → ∃ z w'',
          ((Selections.add settings b.id ⟨name, []⟩ selector caller) s.world).run answer t =
            (.ok (⟨name, []⟩, z.etag), w'', t') ∧ w''.Stores z ∧ z.id = b.id ∧
          name ∈ z.dimensions.map (·.name)) := by
  have hstart : start.store.Tidy s.Sent := by
    refine ⟨fun key b hb => ?_, fun key o ho => ?_⟩
    · simp [Store.filter?_of_empty fresh] at hb
    · simp [Store.output?_of_empty bare] at ho
  refine ⟨run.keeps_tidy (.of_empty fresh) hstart fun task sent => ⟨task, sent, rfl⟩, ?_⟩
  intro σ answer t t' w' b selector caller name admits
  exact ⟨fun d found new differs => admits.run_addOption found new differs, admits.run_add⟩

namespace Small

/-- The empty option is added to the blank blueprint. -/
def careless : List (Caller × ServiceCall) :=
  [(known, .addOption "f" "age" "" .any),
   (known, .create ⟨dataset, [⟨"age", []⟩], ""⟩ false)]

theorem careless_computed :
    ((lastWorld world (course settings reply world careless)).store.filter? "f").map
      (·.dimensions) = some [⟨"age", [""]⟩] := by
  decide +kernel

theorem empty_option_let_through : ∃ s b,
    Run settings answers world (course settings reply world careless) s ∧
      s.world.store.Tidy s.Sent ∧ s.world.store.filter? "f" = some b ∧
      b.dimensions = [⟨"age", [""]⟩] := by
  have followed : ∃ s, Run settings answers world (course settings reply world careless) s ∧ _ :=
    Run.of_course answers_reply careless
  obtain ⟨s, run, -⟩ := followed
  obtain ⟨tidy, -⟩ := run.normal_but_for_what_is_let_through world_fresh rfl
  obtain ⟨b, stored, dimensions⟩ := Option.map_eq_some_iff.mp careless_computed
  exact ⟨s, b, run, tidy, run.world_eq ▸ stored, dimensions⟩

end Small

end DatasetFilters
