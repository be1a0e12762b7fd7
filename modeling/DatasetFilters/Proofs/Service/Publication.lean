import DatasetFilters.Proofs.Service.Hashed

namespace DatasetFilters

/-- The versions that a catalog reports as published after so many moments. What was published stays
so. -/
structure Publications where
  reported : Nat → DatasetRef → Prop
  lasting : ∀ {n n' : Nat} {d : DatasetRef}, n ≤ n' → reported n d → reported n' d

/-- What such a catalog may answer. -/
def Publications.Answers (p : Publications) (n : Nat) : (q : Query) → q.Reply → Prop
  | .version d authenticated, reply => ∃ fetched : CatalogReply Version,
      reply = fetched.bind (fun v => v.visibleTo d authenticated) ∧
        ∀ v, fetched = .ok v → (v.isPublished = true ↔ p.reported n d)
  | .dataset _, _ | .dimensions _, _ | .options _ _ _, _ | .forward _ _, _ => True

/-- Somebody known moved a public blueprint to another version. -/
def Moment.MovesPublic (m : Moment) (id : String) (dataset : DatasetRef) : Prop :=
  ∃ me x y, m.mover = some me ∧ me.caller.authenticated = true ∧ m.before.Stores x ∧
    m.after.Stores y ∧ x.id = id ∧ y.id = id ∧ x.isPublished = true ∧ x.dataset ≠ dataset ∧
      y.dataset = dataset

/-- Why a blueprint of this id may be public over this version: the catalog reports it as published,
or somebody known moved the blueprint there when it was public already, since the flag stays when
the version changes. -/
def Publications.Vouches (p : Publications) (past : List Moment) (id : String)
    (dataset : DatasetRef) : Prop :=
  p.reported past.length dataset ∨ ∃ m ∈ past, m.MovesPublic id dataset

theorem Version.of_visibleTo {v w : Version} {d : DatasetRef} {authenticated : Bool}
    (h : v.visibleTo d authenticated = .ok w) :
    v = w ∧ (authenticated = false → w.isPublished = true) := by
  unfold visibleTo at h
  cases published : v.isPublished <;> cases authenticated <;> simp_all

section

variable {p : Publications} {settings : Settings}
  {answers : Nat → (q : Query) → q.Reply → Prop} {me : Client} {documents : Blueprint → Prop}
  {past past' total : List Moment} {now next start : World} {s : Server}

variable (honest : ∀ n q r, answers n q r → p.Answers n q r)
include honest

/-- A version that the catalog tells everybody about, or says is published, it reports as
published. -/
theorem Client.Heard.reported {d : DatasetRef} {authenticated : Bool} {v : Version}
    (h : me.Heard answers past (.version d authenticated) (.ok v))
    (shown : authenticated = false ∨ v.isPublished = true) : p.reported past.length d := by
  obtain ⟨_, _, n, -, -, -, within, answered⟩ := h
  obtain ⟨fetched, visible, published⟩ := honest n _ _ answered
  cases fetched with
  | error e => simp [Except.bind] at visible
  | ok v' =>
    obtain ⟨rfl, known⟩ := Version.of_visibleTo visible.symm
    exact p.lasting within ((published v' rfl).mp (shown.elim known id))

/-- A change that a client has grounds for leaves a public blueprint one that the catalog or somebody
known vouches for. -/
theorem Justified.vouched {a x c : Blueprint} {e : FilterEdit}
    (h : Justified settings answers me past a e) (hxa : x.observed = a.observed)
    (applied : e.apply x = .ok c) (published : c.isPublished = true) :
    (x.isPublished = true ∧ c.dataset = x.dataset) ∨ p.reported past.length c.dataset ∨
      (me.caller.authenticated = true ∧ x.isPublished = true ∧ x.dataset ≠ c.dataset) := by
  have dataset : x.dataset = a.dataset := Blueprint.dataset_congr hxa
  have dimensions (he : ∀ y, e ≠ .change y) : x.isPublished = true ∧ c.dataset = x.dataset := by
    obtain ⟨ds, rfl⟩ := FilterEdit.apply_eq_dimensions applied he
    exact ⟨published, rfl⟩
  -- a change that does not name the flag
  have kept {y : BlueprintChange} (he : c = y.apply x) (flag : y.published = none)
      (same : y.dataset = none) : x.isPublished = true ∧ c.dataset = x.dataset := by
    subst he
    constructor
    · cases hx : x.isPublished with
      | true => rfl
      | false =>
        rw [Blueprint.isPublished, BlueprintChange.apply, flag] at published
        simp only [hx, Option.none_or, Bool.false_eq_true, if_false] at published
        rw [← hx]
        exact published
    · simp [BlueprintChange.apply, same]
  cases h with
  | promotion told =>
    obtain ⟨version, heard⟩ := told
    rw [FilterEdit.apply_change applied, BlueprintChange.apply_promotion]
    refine Or.inr (Or.inl ?_)
    change p.reported past.length x.dataset
    rw [dataset]
    exact heard.reported honest (Or.inl rfl)
  | submission editable same made =>
    exact Or.inl (kept (FilterEdit.apply_change applied) rfl rfl)
  | addDimension d confirmed => exact Or.inl (dimensions (by simp))
  | removeDimension name => exact Or.inl (dimensions (by simp))
  | addOptions name options confirmed => exact Or.inl (dimensions (by simp))
  | removeOptions name options => exact Or.inl (dimensions (by simp))
  | update updates =>
    cases updates with
    | report asked valid => exact Or.inl (kept (FilterEdit.apply_change applied) rfl rfl)
    | @move _ _ _ _ events version found asked valid other editable told confirmed =>
      have target : c.dataset = a.dataset.withVersion version := by
        rw [FilterEdit.apply_change applied]
        rfl
      rw [target]
      refine Or.inr ?_
      cases known : me.caller.authenticated with
      | false => exact Or.inl (told.reported honest (Or.inl known))
      | true =>
        cases hx : x.isPublished with
        | true =>
          refine Or.inr ⟨rfl, rfl, ?_⟩
          intro same
          have versions := congrArg DatasetRef.version (dataset.symm.trans same)
          have differs := (Option.filter_eq_some_iff.mp other).2
          simp only [DatasetRef.withVersion] at versions
          simp [versions] at differs
        | false =>
          refine Or.inl (told.reported honest (Or.inr ?_))
          rw [FilterEdit.apply_change applied, Blueprint.isPublished, BlueprintChange.apply]
            at published
          simpa [hx] using published

/-- One deed leaves every public blueprint vouched for. -/
theorem Deed.vouched (hdocuments : Sha256.Separates fun m => ∃ b, documents b ∧ m = b.content)
    (hvalid : (Rules.ofServices settings answers documents).valid past now)
    (hd : Deed settings answers me past now next) (within : (⟨some me, now, next⟩ :: past) <:+ total)
    (h : ∀ b, now.Stores b → b.isPublished = true → p.Vouches total b.id b.dataset) :
    ∀ b, next.Stores b → b.isPublished = true → p.Vouches total b.id b.dataset := by
  intro b hb published
  have grown := (List.suffix_cons _ past).trans within
  cases hd with
  | rests filters outputs channel =>
    exact h b ((World.stores_of_filters_eq filters).mp hb) published
  | works busy cleared filters work =>
    exact h b ((World.stores_of_filters_eq filters).mp hb) published
  | creates b' t version new free told instanceId confirmed flag blank fresh kept =>
    have stored := hb
    rw [kept] at stored
    rcases World.stores_keeping stored with rfl | stored
    · have shown : version.isPublished = true := by
        simpa [Blueprint.isPublished, flag] using published
      exact Or.inl (p.lasting grown.length_le (told.reported honest (Or.inr shown)))
    · exact h b stored published
  | edits a x c t e saw follows sees cleared found same justified applied changed kept =>
    have stored := hb
    rw [kept] at stored
    rcases World.stores_keeping stored with rfl | stored
    · have looks := saw.observed_eq hdocuments hvalid found same.2
      have hid : c.id = x.id := (FilterEdit.apply_id_etag applied).1
      change p.Vouches total c.id c.dataset
      rcases justified.vouched honest looks applied published with
        ⟨before, dataset⟩ | reported | ⟨known, before, differs⟩
      · rw [hid, dataset]
        exact h x found before
      · exact Or.inl (p.lasting grown.length_le reported)
      · exact Or.inr ⟨_, within.mem List.mem_cons_self, me, x, _, rfl, known, found, hb, hid.symm, rfl,
          before, differs, rfl⟩
    · exact h b stored published

omit honest

/-- One deed leaves every public output vouched for, if the blueprints always were. -/
theorem Deed.output_vouched (hash : NoCollision settings answers past)
    (hvalid : (Rules.ofServices settings answers documents).valid past now)
    (hd : Deed settings answers me past now next)
    (vouched : ∀ m ∈ past, ∀ b, m.after.Stores b → b.isPublished = true →
      p.Vouches total b.id b.dataset)
    (h : ∀ id o, now.store.output? id = some o → o.isPublished = true →
      p.Vouches total o.filterId o.dataset) :
    ∀ id o, next.store.output? id = some o → o.isPublished = true →
      p.Vouches total o.filterId o.dataset := by
  intro id o ho published
  have rests (outputs : next.store.backend.outputs = now.store.backend.outputs) :
      p.Vouches total o.filterId o.dataset :=
    h id o ((Store.output?_of_outputs_eq outputs id).symm.trans ho) published
  have puts {t : Instant} {id' : String} {o' : Output}
      (kept : next = { now with store := now.store.puttingOutput t id' o' })
      (new : o'.isPublished = true → p.Vouches total o'.filterId o'.dataset) :
      p.Vouches total o.filterId o.dataset := by
    rw [kept, Store.output?_puttingOutput] at ho
    by_cases hid : id = id'
    · rw [if_pos hid, Option.some.injEq] at ho
      subst ho
      exact new published
    · rw [if_neg hid] at ho
      exact h id o ho published
  cases hd with
  | rests filters outputs channel => exact rests outputs
  | creates b t version new free told instanceId confirmed flag blank fresh kept =>
    exact rests (by rw [kept]; rfl)
  | edits a x c t e saw follows sees cleared found same justified applied changed kept =>
    exact rests (by rw [kept]; rfl)
  | works busy cleared filters work =>
    cases work with
    | makes b outputId t time stamp submits took free kept =>
      refine puts kept fun published => ?_
      obtain ⟨a, ⟨m, hm, -, stored⟩, looks, -⟩ := took.changes.alike hash hvalid
      have shown : a.isPublished = true := (Blueprint.isPublished_congr looks).trans published
      have vouches := vouched m hm a stored shown
      rw [Blueprint.id_congr looks, Blueprint.dataset_congr looks] at vouches
      exact vouches
    | tends id' old o' t found same kept =>
      refine puts kept fun published => ?_
      have flag : o'.published = old.published := (congrArg Output.published same :)
      have filterId : o'.filterId = old.filterId := (congrArg Output.filterId same :)
      have dataset : o'.dataset = old.dataset := (congrArg Output.dataset same :)
      rw [Output.isPublished, flag] at published
      rw [filterId, dataset]
      exact h id' old found published
    | sends b outputId submits made took submitted named kept => exact rests (by rw [kept])

/-- Why a blueprint or an output is public. In every run over a catalog in which published versions
stay published, somebody vouches for each stored blueprint and output that is public, and for each
that is given to a reader who is unknown. -/
theorem Run.public_vouched_for (fresh : start.Fresh) (noOutputs : start.store.backend.outputs = [])
    (honest : ∀ n q r, answers n q r → p.Answers n q r) (run : Run settings answers start past s)
    (hash : NoCollision settings answers past) :
    (∀ b, s.world.Stores b → b.isPublished = true → p.Vouches past b.id b.dataset) ∧
    (∀ id o, s.world.store.output? id = some o → o.isPublished = true →
      p.Vouches past o.filterId o.dataset) ∧
    ∀ task ∈ s.tasks, task.client.caller = .anonymous → ∀ answer w, task.step = .done (.ok answer) w →
      (∀ id selector, task.client.call = .get id selector →
        ∃ b, answer = .blueprint b ∧ p.Vouches past id b.dataset) ∧
      ∀ id, task.client.call = .output id →
        ∃ o, answer = .output o ∧ p.Vouches past o.filterId o.dataset := by
  obtain ⟨-, tasks, keeps⟩ := run.sound_services fresh hash.collisionless
  have nothing (b : Blueprint) (hb : start.Stores b) : False := by
    simp [World.Stores, Store.filter?_of_empty fresh] at hb
  have empty (id : String) (o : Output) (ho : start.store.output? id = some o) : False := by
    simp [Store.output?_of_empty noOutputs] at ho
  have filters_step : ∀ m earlier, (m :: earlier) <:+ past →
      (∀ b, m.before.Stores b → b.isPublished = true → p.Vouches past b.id b.dataset) →
      ∀ b, m.after.Stores b → b.isPublished = true → p.Vouches past b.id b.dataset := by
    intro m earlier hs before
    cases keeps m earlier hs with
    | idle => exact before
    | received => exact before
    | own me past' now next hvalid hdeed =>
      exact hdeed.vouched honest hash.collisionless hvalid hs before
  have blueprints := run.invariant_after (I := fun w => ∀ b, w.Stores b → b.isPublished = true →
    p.Vouches past b.id b.dataset) (fun b hb => (nothing b hb).elim) filters_step
  have outputs_step : ∀ m earlier, (m :: earlier) <:+ past →
      (∀ id o, m.before.store.output? id = some o → o.isPublished = true →
        p.Vouches past o.filterId o.dataset) →
      ∀ id o, m.after.store.output? id = some o → o.isPublished = true →
        p.Vouches past o.filterId o.dataset := by
    intro m earlier hs before
    have grown := (List.suffix_cons m earlier).trans hs
    cases keeps m earlier hs with
    | idle => exact before
    | received => exact before
    | own me past' now next hvalid hdeed =>
      exact hdeed.output_vouched (hash.earlier grown) hvalid
        (fun m hm => blueprints m (grown.mem hm)) before
  have outputs := run.invariant_after (I := fun w => ∀ id o, w.store.output? id = some o →
    o.isPublished = true → p.Vouches past o.filterId o.dataset)
    (fun id o ho => (empty id o ho).elim) outputs_step
  refine ⟨run.invariant (I := fun w => ∀ b, w.Stores b → b.isPublished = true →
      p.Vouches past b.id b.dataset) (fun b hb => (nothing b hb).elim) filters_step,
    run.invariant (I := fun w => ∀ id o, w.store.output? id = some o →
      o.isPublished = true → p.Vouches past o.filterId o.dataset)
      (fun id o ho => (empty id o ho).elim) outputs_step, ?_⟩
  intro task sent unknown answer w done
  have waits := tasks task sent
  rw [done] at waits
  obtain ⟨past₀, hs, succeeds⟩ := waits
  have succeeds := succeeds answer rfl
  have anonymous : task.client.caller.authenticated = false ∧
      task.client.caller.downloadService = false := by rw [unknown]; exact ⟨rfl, rfl⟩
  constructor
  · intro id selector call
    obtain ⟨b, same, a, ⟨m, hm, -, stored⟩, -, sees, rfl, -, dataset⟩ :=
      succeeds.blueprint id selector call
    refine ⟨b, same, ?_⟩
    rw [← dataset]
    rcases sees (by rw [call]; rfl) with shown | known | ⟨version, told⟩
    · exact blueprints m (hs.mem hm) a stored shown
    · simp [anonymous.1] at known
    · exact Or.inl (p.lasting hs.length_le (told.reported honest (Or.inl rfl)))
  · intro id call
    obtain ⟨o, same, stored, ⟨m, hm, -, key, kept⟩, plan, shown⟩ := succeeds.output id call
    have filterId : o.filterId = stored.filterId := (congrArg Output.filterId plan :)
    have dataset : o.dataset = stored.dataset := (congrArg Output.dataset plan :)
    have flag : o.published = stored.published := (congrArg Output.published plan :)
    have shown : o.isPublished = true := by simpa [anonymous] using shown
    rw [Output.isPublished, flag] at shown
    refine ⟨o, same, ?_⟩
    rw [filterId, dataset]
    exact outputs m (hs.mem hm) key stored kept shown

end

namespace Small.Move

/-- The first version of every edition is published for good. -/
def publications : Publications := ⟨fun _ d => d.version = 1, fun _ h => h⟩

theorem honest (n : Nat) (q : Query) (r : q.Reply) (h : answers n q r) :
    publications.Answers n q r := by
  obtain rfl := h
  cases q with
  | version d authenticated =>
    refine ⟨.ok ⟨"i", if d.version = 1 then publishedState else "created"⟩, rfl, ?_⟩
    intro v hv
    rw [← Except.ok.inj hv]
    by_cases first : d.version = 1 <;> simp [Version.isPublished, publications, publishedState, first]
  | _ => trivial

/-- The moved blueprint is public over a version that is not published. -/
theorem public_over_unpublished :
    ∃ s, Run settings publications.Answers world moments s ∧ s.world.Stores submitted ∧
      submitted.isPublished = true ∧ ¬publications.reported moments.length submitted.dataset := by
  obtain ⟨s, run, -, stored⟩ := run fun n q => honest n q _ (answers_reply n q)
  exact ⟨s, run, stored, rfl, show ¬((2 : UInt32) = 1) by decide⟩

theorem moved_by_somebody_known :
    ∃ m ∈ moments, m.MovesPublic "f" (dataset.withVersion 2) := by
  obtain ⟨s, run, -, stored⟩ := run answers_reply
  obtain ⟨vouched, -, -⟩ := Run.public_vouched_for world_fresh rfl honest run noCollision
  rcases vouched submitted stored rfl with first | moves
  · exact absurd first (show ¬((2 : UInt32) = 1) by decide)
  · exact moves

end Small.Move

end DatasetFilters
