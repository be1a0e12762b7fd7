import DatasetFilters.Proofs.Service.Follow

namespace DatasetFilters

variable {settings : Settings} {answers : Nat → (q : Query) → q.Reply → Prop}
  {documents : Blueprint → Prop} {me : Client} {past past' : List Moment}

def FilterEdit.Stays (e : FilterEdit) : Prop := ∀ b c, e.apply b = .ok c → c.dataset = b.dataset

theorem FilterEdit.stays_of_ne_change {e : FilterEdit} (he : ∀ x, e ≠ change x) : e.Stays := by
  intro b c h
  obtain ⟨ds, rfl⟩ := apply_eq_dimensions h he
  rfl

theorem FilterEdit.stays_promotion : (change .promotion).Stays := by
  intro b c h
  rw [apply_change h, BlueprintChange.apply_promotion]
  rfl

variable (answers) in
/-- The client may follow up a blueprint of this id, tag and dataset version. -/
def Client.Holds (me : Client) (past : List Moment) (id tag : String) (dataset : DatasetRef) :
    Prop :=
  ∃ a, me.Saw past a ∧ me.Follows past a ∧ me.Sees answers past a ∧ a.id = id ∧ a.etag = tag ∧
    a.dataset = dataset

theorem Client.Holds.mono {id tag : String} {dataset : DatasetRef}
    (h : me.Holds answers past id tag dataset) (hp : past <:+ past') :
    me.Holds answers past' id tag dataset := by
  obtain ⟨a, saw, follows, sees, he⟩ := h
  exact ⟨a, saw.mono hp, follows.mono hp, sees.mono hp, he⟩

variable (answers) in
/-- The client came to a blueprint of this id that it may follow up. -/
def Client.Reaches (me : Client) (past : List Moment) (id : String) : Prop :=
  ∃ tag dataset, me.Holds answers past id tag dataset

/-- What a client may see it still may see after a change that it had grounds for. -/
theorem Justified.sees {a x c : Blueprint} {e : FilterEdit} (h : Justified settings answers me past a e)
    (hxa : x.observed = a.observed) (hc : e.apply x = .ok c) (hs : me.Sees answers past a) :
    me.Sees answers past c := by
  intro looks
  have published : a.isPublished = x.isPublished := Blueprint.isPublished_congr hxa.symm
  have dataset : a.dataset = x.dataset := Blueprint.dataset_congr hxa.symm
  -- a change that keeps the dataset version
  have kept (hd : c.dataset = x.dataset) :
      c.isPublished = true ∨ me.caller.authenticated = true ∨ Told answers me past c := by
    rcases hs looks with h | h | h
    · exact Or.inl (FilterEdit.isPublished_of_apply hc (published ▸ h))
    · exact Or.inr (Or.inl h)
    · rw [Told, dataset] at h
      rw [Told, hd]
      exact Or.inr (Or.inr h)
  have dimensions (he : ∀ y, e ≠ .change y) :
      c.isPublished = true ∨ me.caller.authenticated = true ∨ Told answers me past c := by
    obtain ⟨ds, rfl⟩ := FilterEdit.apply_eq_dimensions hc he
    exact kept rfl
  cases h with
  | promotion told =>
    rw [FilterEdit.apply_change hc, BlueprintChange.apply_promotion]
    exact Or.inl rfl
  | update updates =>
    cases updates with
    | report asked valid =>
      refine kept ?_
      rw [FilterEdit.apply_change hc]
      rfl
    | move found asked valid other editable told confirmed =>
      cases known : me.caller.authenticated with
      | true => exact Or.inr (Or.inl rfl)
      | false =>
        rw [known] at told
        refine Or.inr (Or.inr ⟨found, ?_⟩)
        rw [FilterEdit.apply_change hc]
        exact told
  | submission editable same made =>
    refine kept ?_
    rw [FilterEdit.apply_change hc]
    rfl
  | addDimension d confirmed => exact dimensions (by simp)
  | removeDimension name => exact dimensions (by simp)
  | addOptions name options confirmed => exact dimensions (by simp)
  | removeOptions name options => exact dimensions (by simp)

variable (settings answers) in
/-- The client goes on with a blueprint: one of its tag is there that the client may follow up, and is
submitted if this one is; and what the client has it was given, or made itself by an update. -/
structure Client.Has (me : Client) (past : List Moment) (b : Blueprint) : Prop where
  stored : ∃ a, me.Saw past a ∧ me.Follows past a ∧ me.Sees answers past a ∧ a.id = b.id ∧
    a.etag = b.etag ∧ a.isSubmitted = b.isSubmitted
  took : me.Took past (me.Updates settings answers) b

theorem Client.Has.mono {b : Blueprint} (h : me.Has settings answers past b) (hp : past <:+ past') :
    me.Has settings answers past' b := by
  obtain ⟨⟨a, saw, follows, sees, he⟩, took⟩ := h
  exact ⟨⟨a, saw.mono hp, follows.mono hp, sees.mono hp, he⟩, took.mono hp⟩

theorem Client.Has.of_saw {b : Blueprint} (saw : me.Saw past b) (follows : me.Follows past b)
    (sees : me.Sees answers past b) : me.Has settings answers past b :=
  ⟨⟨b, saw, follows, sees, rfl, rfl, rfl⟩, Or.inl saw⟩

variable (answers) in
/-- What a write on the tag of a blueprint `a`, sent in some past, left the client with: the changed
blueprint as it is stored, or as it would be if it made a difference. -/
inductive Client.Outcome (me : Client) (past : List Moment) (a : Blueprint) (e : FilterEdit)
    (past' : List Moment) (c : Blueprint) : Prop
  | written (x y : Blueprint) (looks : x.observed = a.observed) (applied : e.apply x = .ok y)
      (marks : c = { y with etag := c.etag, stamp := c.stamp, lastUpdated := c.lastUpdated })
      (saw : me.Saw past' c) (follows : me.Follows past' c) (sees : me.Sees answers past' c)
  | same (x : Blueprint) (m : Moment) (looks : x.observed = a.observed) (applied : e.apply x = .ok c)
      (idx : x.id = a.id) (tagx : x.etag = a.etag) (sent : (m :: past) <:+ past')
      (mover : m.mover = some me) (stored : m.before.Stores x) (unchanged : c.tag = x.etag)
      (saw : me.Saw past' x) (follows : me.Follows past' x) (sees : me.Sees answers past' x)

namespace Client.Outcome

variable {a c : Blueprint} {e : FilterEdit}

theorem applied_to (h : me.Outcome answers past a e past' c) :
    ∃ x y, x.observed = a.observed ∧ e.apply x = .ok y ∧
      c = { y with etag := c.etag, stamp := c.stamp, lastUpdated := c.lastUpdated } := by
  cases h with
  | written x y looks applied marks => exact ⟨x, y, looks, applied, marks⟩
  | same x m looks applied => exact ⟨x, c, looks, applied, rfl⟩

theorem id_eq (h : me.Outcome answers past a e past' c) : c.id = a.id := by
  obtain ⟨x, y, looks, applied, marks⟩ := h.applied_to
  rw [marks]
  exact (FilterEdit.apply_id_etag applied).1.trans (Blueprint.id_congr looks)

theorem dataset_eq (h : me.Outcome answers past a e past' c) (stays : e.Stays) :
    c.dataset = a.dataset := by
  obtain ⟨x, y, looks, applied, marks⟩ := h.applied_to
  rw [marks]
  exact (stays x y applied).trans (Blueprint.dataset_congr looks)

/-- A write on the tag of a blueprint which the client may follow up leaves it with the tag of
another such blueprint. -/
theorem holds (h : me.Outcome answers past a e past' c) :
    ∃ dataset, me.Holds answers past' a.id c.etag dataset ∧ (e.Stays → dataset = a.dataset) := by
  have hid := h.id_eq
  cases id h with
  | written x y looks applied marks saw follows sees =>
    exact ⟨c.dataset, ⟨c, saw, follows, sees, hid, rfl, rfl⟩, fun stays => h.dataset_eq stays⟩
  | same x m looks applied idx tagx sent mover stored unchanged saw follows sees =>
    exact ⟨x.dataset, ⟨x, saw, follows, sees, idx, (FilterEdit.apply_id_etag applied).2.symm, rfl⟩,
      fun _ => Blueprint.dataset_congr looks⟩

theorem took {change : BlueprintChange} (h : me.Outcome answers past a (.change change) past' c)
    {grounds : List Moment → Blueprint → BlueprintChange → Prop} (saw : me.Saw past a)
    (ground : grounds past a change) : me.Took past' grounds c := by
  cases h with
  | written _ _ _ _ _ stored => exact Or.inl stored
  | same x m looks applied idx tagx sent mover stored unchanged =>
    exact Or.inr ⟨m, past, sent, mover, a, x, change, saw, stored, idx, tagx, ground,
      FilterEdit.apply_change applied, unchanged⟩

theorem has {change : BlueprintChange} (h : me.Outcome answers past a (.change change) past' c)
    (saw : me.Saw past a) (updates : me.Updates settings answers past a change) :
    me.Has settings answers past' c := by
  have took : me.Took past' (me.Updates settings answers) c := h.took saw updates
  cases h with
  | written x y looks applied marks stored follows sees => exact .of_saw stored follows sees
  | same x m looks applied idx tagx sent mover stored unchanged saw follows sees =>
    obtain ⟨hid, htag⟩ := FilterEdit.apply_id_etag applied
    have state : x.isSubmitted = c.isSubmitted := by
      rw [FilterEdit.apply_change applied]
      cases updates <;> rfl
    exact ⟨⟨x, saw, follows, sees, hid.symm, htag.symm, state⟩, took⟩

theorem submitted {outputId : String} {time : Instant}
    (h : me.Outcome answers past a (.change (.submission outputId time)) past' c) :
    c.isSubmitted = true ∧ c.outputId = some outputId := by
  obtain ⟨x, y, -, applied, marks⟩ := h.applied_to
  rw [marks, FilterEdit.apply_change applied]
  exact ⟨rfl, rfl⟩

end Client.Outcome

namespace Request

theorem keeps_now : (now : Request ε Instant).Keeps (.ofServices settings answers documents) me past
    fun _ _ => True :=
  keeps_act fun _ _ => ⟨.rests rfl rfl rfl, fun _ _ => trivial⟩

theorem keeps_drawId : (drawId : Request ε String).Keeps (.ofServices settings answers documents) me
    past fun _ _ => True :=
  keeps_act fun _ _ => ⟨.rests rfl rfl rfl, fun _ _ => trivial⟩

theorem keeps_count (c : Counter) : (count c : Request ε Unit).Keeps
    (.ofServices settings answers documents) me past fun _ _ => True :=
  keeps_act fun _ _ => ⟨.rests rfl rfl rfl, fun _ _ => trivial⟩

theorem keeps_enqueue {b : Blueprint} {outputId : String} (busy : me.call.looks = false)
    (cleared : me.Cleared settings answers past) (submits : me.call.submits = true)
    (made : ∃ b' time, me.Made settings answers past b' outputId time)
    (took : me.Took past (me.Changes settings answers) b) (submitted : b.isSubmitted = true)
    (named : b.outputId = some outputId) :
    (enqueue outputId : Request ε _).Keeps (.ofServices settings answers documents) me past
      fun _ _ => True := by
  refine keeps_act fun now _ => ⟨?_, fun _ _ => trivial⟩
  exact .works busy cleared rfl (.sends b outputId submits made took submitted named rfl)

theorem keeps_read {rules : Rules} {f : Store → Except StoreError α × Store}
    {p : α → List Moment → Prop}
    (h : (access f : Request ServiceError _).Keeps rules me past
      fun r past => ∀ a, r = .ok a → p a past) : (read f).Keeps rules me past p := by
  refine h.bind ?_
  intro r past' _ hr
  refine keeps_ofExcept ?_
  intro a ha
  cases r with
  | ok b =>
    obtain rfl := Except.ok.inj ha
    exact hr b rfl
  | error e => simp [Except.mapError] at ha

theorem keeps_write {f : Store → Instant → Except StoreError α × Store}
    {p : α → List Moment → Prop}
    (h : ∀ t past', past <:+ past' → (access (f · t) : Request ServiceError _).Keeps
      (.ofServices settings answers documents) me past' fun r past => ∀ a, r = .ok a → p a past) :
    (write f).Keeps (.ofServices settings answers documents) me past p :=
  keeps_now.bind fun t past' hs _ => keeps_read (h t past' hs)

theorem keeps_addOutput {b : Blueprint} (busy : me.call.looks = false)
    (cleared : me.Cleared settings answers past) (submits : me.call.submits = true)
    (took : me.Took past (me.Updates settings answers) b) (outputId : String) (time t : Instant) :
    (access (·.addOutput t (.ofBlueprint outputId b time)) : Request ε _).Keeps
      (.ofServices settings answers documents) me past fun r past =>
        ∀ o, r = .ok o → me.Made settings answers past b outputId time := by
  refine keeps_act ?_
  intro now _
  rcases now.store.addOutput_cases t (.ofBlueprint outputId b time) with ⟨error, he⟩ | ⟨free, he⟩
  · simp only [he]
    exact ⟨.rests rfl rfl rfl, by simp⟩
  · simp only [he]
    refine ⟨.works busy cleared rfl (.makes b outputId t time _ submits took free rfl), ?_⟩
    intro past' hs _ _
    have none : now.store.output? outputId = none := Store.output?_of_free free
    exact ⟨_, past, hs, rfl, took, none, _, Store.output?_puttingOutput_self now.store t outputId _⟩

theorem keeps_modifyOutput {change : Output → Except δ (Output × α)} (busy : me.call.looks = false)
    (cleared : me.Cleared settings answers past)
    (same : ∀ o p, change o = .ok p → p.1.plan = o.plan) (t : Instant) (id : String)
    (failed : StoreError → δ) :
    (access (·.modifyOutput t id failed change) : Request ε _).Keeps
      (.ofServices settings answers documents) me past fun _ _ => True := by
  refine keeps_act fun now _ => ⟨?_, fun _ _ => trivial⟩
  rcases now.store.modifyOutput_cases t id failed change with ⟨error, he⟩ | ⟨o, p, ho, hp, he⟩
  · simp only [he]
    exact .rests rfl rfl rfl
  · simp only [he]
    have tended : (now.store.restampedOutput t p.1).plan = o.plan := same o p hp
    exact .works busy cleared rfl (.tends id o _ t ho tended rfl)

theorem keeps_getFilter (id : String) (selector : Selector) :
    (access (·.getFilter id selector) : Request ε _).Keeps
      (.ofServices settings answers documents) me past fun r past =>
        ∀ b, r = .ok b → me.Saw past b ∧ b.id = id ∧ selector.accepts b.etag = true := by
  refine keeps_act ?_
  intro now hvalid
  obtain ⟨hnow, -⟩ := hvalid
  rcases Store.getFilter_cases hnow.sound id selector with ⟨error, he⟩ | ⟨b, hb, ha, he⟩
  · simp only [he]
    exact ⟨.rests rfl rfl rfl, by simp⟩
  · simp only [he]
    refine ⟨.rests rfl rfl rfl, ?_⟩
    intro past' hs b' hb'
    obtain rfl := Except.ok.inj hb'
    have stored : World.Stores { now with store := now.store.touched } b := by
      rw [World.Stores, hnow.sound.id_eq hb, Store.filter?_touched]
      exact hb
    exact ⟨⟨_, hs.mem List.mem_cons_self, rfl, stored⟩, hnow.sound.id_eq hb, ha⟩

/-- A blueprint is created over a version that the catalog told about, with dimensions that it
confirmed. -/
theorem keeps_addFilter {b : Blueprint} {version : Version} (busy : me.call.looks = false)
    (new : me.call.target? = none)
    (told : me.Heard answers past (.version b.dataset me.caller.authenticated) (.ok version))
    (instanceId : b.instanceId = version.instanceId)
    (confirmed : ∀ d ∈ b.dimensions, Confirmed settings answers me past b.dataset d.name d.options)
    (published : b.published = some version.isPublished)
    (blank : b.state = .created ∧ b.outputId = none) (t : Instant) :
    (access (·.addFilter t b) : Request ε _).Keeps (.ofServices settings answers documents) me past
      fun r past => ∀ c, r = .ok c → me.Has settings answers past c := by
  refine keeps_act ?_
  intro now hvalid
  obtain ⟨hnow, -⟩ := hvalid
  rcases Store.addFilter_cases hnow.sound t b with ⟨error, he⟩ | ⟨free, he⟩
  · simp only [he]
    exact ⟨.rests rfl rfl rfl, by simp⟩
  · simp only [he]
    let c := now.store.stampedFilter t b
    refine ⟨.creates c t version new free told instanceId confirmed published blank rfl rfl, ?_⟩
    intro past' hs c' hc'
    obtain rfl := Except.ok.inj hc'
    have saw : me.Saw past' c :=
      ⟨_, hs.mem List.mem_cons_self, rfl, Store.filter?_keeping_self now.store t c⟩
    have accepts : me.Accepts c.etag := fun id selector h => by simp [new] at h
    have follows : me.Follows past' c := ⟨fun id selector h => by simp [new] at h,
      Or.inr (Or.inl ⟨c, saw, rfl, accepts, Or.inl rfl⟩)⟩
    have sees : me.Sees answers past' c := fun h => by simp [busy] at h
    exact .of_saw saw follows sees

variable (hash : Sha256.Separates fun m => ∃ b, documents b ∧ m = b.content)
include hash

/-- A write on the tag of a blueprint that the client may follow up. At a conflict it found another
tag. -/
theorem keeps_modify {a : Blueprint} {e : FilterEdit} (saw : me.Saw past a)
    (follows : me.Follows past a) (sees : me.Sees answers past a)
    (cleared : me.Cleared settings answers past) (justified : Justified settings answers me past a e)
    (t : Instant) :
    (access fun s => s.modifyFilter t a.id (.exact a.etag) e.apply : Request ε _).Keeps
      (.ofServices settings answers documents) me past fun r past' =>
        (∀ key, r = .error (.conflict key) → ∃ m ∈ past', m.mover = some me ∧
          ∃ z, m.before.Stores z ∧ z.id = a.id ∧ z.etag ≠ a.etag) ∧
        ∀ c, r = .ok c → me.Outcome answers past a e past' c := by
  refine keeps_act ?_
  intro now hvalid
  have hnow := hvalid.1
  rcases Store.modifyFilter_cases hnow.sound t a.id (.exact a.etag) e with
    ⟨error, he⟩ | ⟨x, c, hx, hacc, hc, hwritten⟩
  · -- refused
    simp only [he]
    refine ⟨.rests rfl rfl rfl, ?_⟩
    intro past' hs
    refine ⟨?_, by simp⟩
    intro key hkey
    obtain rfl := Except.error.inj hkey
    obtain ⟨z, hz, hne⟩ := Store.modifyFilter_of_conflict hnow.sound (congrArg Prod.fst he)
    refine ⟨_, hs.mem List.mem_cons_self, rfl, z, World.stores_of_filter? hnow.sound hz,
      hnow.sound.id_eq hz, ?_⟩
    intro heq
    simp [Selector.accepts, heq] at hne
  · have stored : now.Stores x := World.stores_of_filter? hnow.sound hx
    have idx : x.id = a.id := hnow.sound.id_eq hx
    have tagx : x.etag = a.etag := (beq_iff_eq.mp hacc).symm
    obtain ⟨idc, tagc⟩ := FilterEdit.apply_id_etag hc
    have looks : x.observed = a.observed := saw.observed_eq hash hvalid stored tagx
    have datasetx : x.dataset = a.dataset := Blueprint.dataset_congr looks
    have seesx : me.Sees answers past x := by
      intro h
      rw [Blueprint.isPublished_congr looks, Told, datasetx]
      exact sees h
    rcases hwritten with ⟨htag, he⟩ | ⟨htag, he⟩
    · -- no difference: what is stored stays
      simp only [he]
      refine ⟨.rests rfl rfl rfl, ?_⟩
      intro past' hs
      have kept : World.Stores { now with store := now.store.touched } x := by
        rw [World.Stores, Store.filter?_touched]
        exact stored
      have mem := hs.mem List.mem_cons_self
      refine ⟨by simp, ?_⟩
      intro c' hc'
      obtain rfl := Except.ok.inj hc'
      have grown := (List.suffix_cons _ past).trans hs
      exact .same x _ looks hc idx tagx hs rfl stored htag ⟨_, mem, rfl, kept⟩
        ((follows.mono grown).after_write looks mem rfl stored kept rfl) (seesx.mono grown)
    · -- written
      simp only [he]
      refine ⟨.edits a x c t e saw follows sees cleared stored ⟨idx, tagx⟩ justified hc
        htag rfl, ?_⟩
      intro past' hs
      have kept : World.Stores { now with
          store := now.store.keeping t (now.store.restamped t c) } (now.store.restamped t c) :=
        Store.filter?_keeping_self now.store t (now.store.restamped t c)
      have mem := hs.mem List.mem_cons_self
      refine ⟨by simp, ?_⟩
      intro c' hc'
      obtain rfl := Except.ok.inj hc'
      have grown := (List.suffix_cons _ past).trans hs
      have seesc : me.Sees answers past c := justified.sees looks hc sees
      exact .written x c looks hc rfl ⟨_, mem, rfl, kept⟩
        ((follows.mono grown).after_write looks mem rfl stored kept idc.symm) (seesc.mono grown)

/-- An edit of dimensions goes on from the tag that the client holds. -/
theorem keeps_edit {id tag : String} {dataset : DatasetRef} {e : FilterEdit}
    (holds : me.Holds answers past id tag dataset) (he : ∀ x, e ≠ .change x)
    (cleared : me.Cleared settings answers past)
    (justified : ∀ a : Blueprint, a.dataset = dataset → Justified settings answers me past a e) :
    (write fun s t => Store.tagOnly (s.modifyFilter t id (.exact tag) e.apply)).Keeps
      (.ofServices settings answers documents) me past fun tag past =>
        me.Holds answers past id tag dataset := by
  refine keeps_write ?_
  intro t past' hs
  obtain ⟨a, saw, follows, sees, rfl, rfl, rfl⟩ := holds.mono hs
  refine (keeps_modify hash saw follows sees (cleared.mono hs) ((justified a rfl).mono hs) t).mapAct
    (fun r => r.map (·.etag)) ?_
  intro r past'' written tag htag
  obtain ⟨-, hr⟩ := written
  cases r with
  | ok c =>
    obtain rfl := Except.ok.inj htag
    obtain ⟨dataset, holds', hdataset⟩ := (hr c rfl).holds
    rw [← hdataset (FilterEdit.stays_of_ne_change he)]
    exact holds'
  | error e => simp [Except.map] at htag

end Request

theorem Request.keeps_answered {rules : Rules} (r : CatalogReply α) :
    (answered r).Keeps rules me past fun a _ => r = .ok a := by
  refine keeps_ofExcept ?_
  intro a ha
  cases r with
  | ok b => exact congrArg Except.ok (Except.ok.inj ha)
  | error e => simp [Except.mapError] at ha

namespace Validation

theorem keeps_declared (d : DatasetRef) :
    (declared d).Keeps (.ofServices settings answers documents) me past fun names past =>
      ∃ dimensions, me.Heard answers past (.dimensions d) (.ok dimensions) ∧
        names = dimensions.map (·.name) := by
  refine (Request.keeps_ask _).bind ?_
  intro reply past' _ heard
  refine (Request.keeps_answered reply).bind ?_
  intro dimensions past'' hs same
  obtain rfl := same
  exact Request.keeps_pure ⟨dimensions, heard.mono hs, rfl⟩

theorem keeps_options (d : DatasetRef) (name : String) (ids : List String) :
    (options settings.limits d name ids).Keeps (.ofServices settings answers documents) me past
      fun _ past => Chosen settings answers me past d name ids := by
  unfold options
  by_cases hempty : Dimension.distinct ids = []
  · simp only [hempty, List.isEmpty_nil, if_true]
    exact Request.keeps_pure (Or.inl hempty)
  · simp only [List.isEmpty_iff, hempty, if_false]
    refine (Request.keeps_ask _).bind ?_
    intro reply past' _ heard
    refine (Request.keeps_answered reply).bind ?_
    intro confirmed past'' hs same
    obtain rfl := same
    refine Request.keeps_ofExcept ?_
    intro u hu
    exact Or.inr ⟨confirmed, heard.mono hs, hu⟩

/-- A check that passes was confirmed by the catalog. -/
theorem keeps_dimension (d : DatasetRef) (name : String) (ids : List String) :
    (dimension settings.limits d name ids).Keeps (.ofServices settings answers documents) me past
      fun _ past => Confirmed settings answers me past d name ids := by
  refine (keeps_declared d).bind ?_
  intro names past' _ declared
  obtain ⟨dimensions, heard, rfl⟩ := declared
  by_cases hname : name ∈ dimensions.map (·.name)
  · simp only [List.contains_eq_mem, hname, decide_true, Bool.not_true, Bool.false_eq_true, if_false]
    exact (keeps_options d name ids).weaken
      fun _ _ hs h => ⟨⟨dimensions, heard.mono hs, hname⟩, h⟩
  · simp only [List.contains_eq_mem, hname, decide_false, Bool.not_false, if_true]
    exact Request.keeps_fail _

theorem keeps_allOptions (d : DatasetRef) (xs : List Dimension) :
    (allOptions settings.limits d xs).Keeps (.ofServices settings answers documents) me past
      fun _ past => ∀ x ∈ xs, Chosen settings answers me past d x.name x.options := by
  induction xs generalizing past with
  | nil => exact Request.keeps_pure (by simp)
  | cons x xs ih =>
    refine (keeps_options d x.name x.options).bind ?_
    intro _ past' _ hx
    refine ih.weaken ?_
    intro _ past'' hs hxs y hy
    rcases List.mem_cons.mp hy with rfl | hy
    · exact hx.mono hs
    · exact hxs y hy

theorem keeps_dimensions (d : DatasetRef) (xs : List Dimension) :
    (dimensions settings.limits d xs).Keeps (.ofServices settings answers documents) me past
      fun _ past => ∀ x ∈ xs, Confirmed settings answers me past d x.name x.options := by
  unfold dimensions
  by_cases hempty : xs = []
  · subst hempty
    exact Request.keeps_pure (by simp)
  · simp only [List.isEmpty_iff, hempty, if_false]
    refine (keeps_declared d).bind ?_
    intro names past' _ declared
    obtain ⟨dimensions, heard, rfl⟩ := declared
    by_cases hunknown : ((xs.map (·.name)).filter
        fun name => !(dimensions.map (·.name)).contains name) = []
    · simp only [hunknown, if_true]
      refine (keeps_allOptions d xs).weaken ?_
      intro _ past'' hs hxs x hx
      have declared : x.name ∈ dimensions.map (·.name) := by
        have := List.filter_eq_nil_iff.mp hunknown x.name (List.mem_map_of_mem hx)
        simpa only [Bool.not_eq_true, Bool.not_eq_false, List.contains_iff_mem,
          Bool.not_eq_eq_eq_not, Bool.not_false, Bool.not_true] using this
      exact ⟨⟨dimensions, heard.mono hs, declared⟩, hxs x hx⟩
    · simp only [hunknown, if_false]
      exact Request.keeps_fail _

end Validation

end DatasetFilters
