import DatasetFilters.Proofs.Service.Landing
import DatasetFilters.Proofs.Service.Patching

namespace DatasetFilters

/-- The changes of the dimensions of a blueprint that a call asks for. -/
inductive ServiceCall.Asks : ServiceCall → String → FilterEdit → Prop
  | addDimension (id : String) (d : Dimension) (selector : Selector) :
      Asks (.addDimension id d selector) id
        (.addDimension { d with options := Dimension.distinct d.options })
  | removeDimension (id name : String) (selector : Selector) :
      Asks (.removeDimension id name selector) id (.removeDimension name)
  | addOption (id name o : String) (selector : Selector) :
      Asks (.addOption id name o selector) id (.addOptions name [o])
  | removeOption (id name o : String) (selector : Selector) :
      Asks (.removeOption id name o selector) id (.removeOptions name [o])
  /-- Which operands of an operation are new depends on the dimension as the patch finds it. -/
  | add (id name : String) {operations : List PatchOperation} (selector : Selector)
      {o : PatchOperation} (h : o ∈ operations) (adds : o.action = .add) (d : Dimension) :
      Asks (.patch id name operations selector) id
        (.addOptions name ((Selections.operands o).filter fun v => !d.has v))
  | remove (id name : String) {operations : List PatchOperation} (selector : Selector)
      {o : PatchOperation} (h : o ∈ operations) (removes : o.action = .remove) :
      Asks (.patch id name operations selector) id (.removeOptions name (Selections.operands o))

/-- What a client finds at its moments under one and the same tag looks the same, and a change that it
asks for makes no difference if it makes none to the tag. -/
structure Client.Legible (me : Client) (own : List Moment) : Prop where
  alike : ∀ m ∈ own, ∀ n ∈ own, ∀ x y, m.after.Stores x → n.before.Stores y → x.etag = y.etag →
    x.observed = y.observed
  unmoved : ∀ n ∈ own, ∀ e y c, n.before.Stores y → me.call.Asks y.id e → e.apply y = .ok c →
    c.tag = y.etag → c.observed = y.observed

/-- What an operation of a patch does to the dimension of a name. -/
def PatchOperation.edit (o : PatchOperation) (name : String) : DimensionEdit :=
  match o.action with
  | .add => .insert name o.ids.toFinset
  | .remove => .erase name o.ids.toFinset

namespace Selections

/-- What operations of a patch come to, one after the other. -/
def landings (id name : String) (operations : List PatchOperation) : List Landing :=
  Landing.all id (operations.map (·.edit name))

theorem landings_append (id name : String) (done : List PatchOperation) (o : PatchOperation) :
    landings id name (done ++ [o]) = landings id name done ++ Landing.all id [o.edit name] := by
  simp [landings, Landing.all]

theorem landings_prefix (id name : String) {done operations : List PatchOperation}
    (h : done <+: operations) : landings id name done <+: landings id name operations :=
  (h.map fun o : PatchOperation => o.edit name).map (Landing.mk id)

end Selections

/-- The edits that a call asks for. -/
def ServiceCall.edits : ServiceCall → List Landing
  | addDimension id d _ => Landing.all id [.put d.name (d.options.toFinset.erase "")]
  | removeDimension id name _ => Landing.all id [.delete name]
  | addOption id name o _ => Landing.all id [.insert name {o}]
  | removeOption id name o _ => Landing.all id [.erase name {o}]
  | patch id name operations _ => Selections.landings id name operations
  | _ => []

/-- The edits that a call reports as made when it ends: all that it asks for or none, but a patch tells
which of its operations were carried out. -/
def ServiceCall.reported : ServiceCall → Except ServiceError Answer → List Landing
  | patch id name _ _, .ok (.patched operations _) => Selections.landings id name operations
  | patch id name _ _, .error e => Selections.landings id name e.carriedOut
  | call, .ok _ => call.edits
  | _, .error _ => []

/-- What a client has landed when it ends: just what it reports, in the order in which it asked. -/
structure Client.Ended (me : Client) (result : Except ServiceError Answer) (own : List Moment) :
    Prop where
  within : me.call.reported result <+: me.call.edits
  landed : Landed (me.call.reported result) own

/-- The terms of requests that land edits: the first of those that they ask for at any time. What a
request has landed when it fails depends on how it fails. -/
def Terms.landing (me : Client) (failed : ServiceError → List Moment → Prop) : Terms ServiceError where
  given := me.Legible
  always own := ∃ es, es <+: me.call.edits ∧ Landed es own
  asking _ := True
  failed := failed

/-- To have landed these edits, the first of those that the client asks for, will do for a failure that
reports nothing as carried out. -/
structure Excuses (me : Client) (failed : ServiceError → List Moment → Prop) (es : List Landing) :
    Prop where
  within : es <+: me.call.edits
  failed : ∀ e own, e.carriedOut = [] → Landed es own → failed e own

variable {settings : Settings} {me : Client} {failed : ServiceError → List Moment → Prop}
  {es : List Landing} {own : List Moment} {b : Blueprint}

namespace Excuses

variable (excuses : Excuses me failed es)
include excuses

/-- What tells that the edits have landed stands while the blueprints do. -/
theorem steady {P : List Moment → Prop} (still : ∀ {own m}, P own → Moment.Still m → P (m :: own))
    (landed : ∀ {own}, P own → Landed es own) : (Terms.landing me failed).Steady P where
  calm h hm := ⟨⟨⟨es, excuses.within, landed (still h hm.still)⟩, trivial⟩, still h hm.still⟩
  failed plain h := excuses.failed _ _ plain (landed h)

theorem landed : (Terms.landing me failed).Steady (Landed es) :=
  excuses.steady Landed.still id

theorem holds : (Terms.landing me failed).Steady (Holds b es) :=
  excuses.steady (fun h hm => h.still hm) Holds.landed

end Excuses

/-- A write of a blueprint on the tag of one that the client has in its hands. If it succeeds the change
has landed, whether or not there was anything to write, and the client has the outcome in its hands. -/
theorem Holds.write (h : Holds b es own) (excuses : Excuses me failed es) {e : FilterEdit}
    (asks : me.call.Asks b.id e) {edits : List DimensionEdit}
    (within : es ++ Landing.all b.id edits <+: me.call.edits)
    (same : ∀ s, b.Shows s → s.editAll? e.edits = s.editAll? edits) :
    (Request.write fun s t => Store.tagOnly (s.modifyFilter t b.id (.exact b.etag) e.apply)).Accounts
      (.landing me failed) me own fun tag own => ∃ x y c, Holding x (es ++ Landing.all b.id edits) own ∧
        x.id = b.id ∧ x.etag = tag ∧ y.selected = b.selected ∧ e.apply y = .ok c ∧
        x.selected = c.selected := by
  refine excuses.holds.write h ?_
  rintro t own ⟨x, holding, hid, htag, looks⟩ now hnow
  rcases Store.modifyFilter_cases hnow t b.id (.exact b.etag) e with
    ⟨error, he⟩ | ⟨y, c, hy, accepted, hc, he⟩
  · rw [he]
    exact ⟨rfl, rfl⟩
  · have stored : now.Stores y := World.stores_of_filter? hnow hy
    have hyid : y.id = b.id := hnow.id_eq hy
    have tag : x.etag = y.etag := htag.trans (beq_iff_eq.mp accepted)
    obtain ⟨n, hn, seen⟩ := holding.stored
    -- whatever becomes of the write, the tag tells that the client found the dimensions it had read
    have finds {w : World} (given : me.Legible (⟨some me, now, w⟩ :: own)) :
        y.selected = b.selected := by
      have same := given.alike n (List.mem_cons_of_mem _ hn) _ List.mem_cons_self x y seen stored tag
      exact (Blueprint.selected_congr same).symm.trans looks
    have settled {w : World} {x' : Blueprint} {tag' : String} (selected : y.selected = b.selected)
        (lands : (⟨some me, now, w⟩ : Moment).Lands (Landing.all b.id e.edits)) (stores : w.Stores x')
        (hid' : x'.id = b.id) (htag' : x'.etag = tag') (outcome : x'.selected = c.selected) :
        (∃ es, es <+: me.call.edits ∧ Landed es (⟨some me, now, w⟩ :: own)) ∧ ∃ x y c,
          Holding x (es ++ Landing.all b.id edits) (⟨some me, now, w⟩ :: own) ∧ x.id = b.id ∧
          x.etag = tag' ∧ y.selected = b.selected ∧ e.apply y = .ok c ∧ x.selected = c.selected := by
      have lands' : (⟨some me, now, w⟩ : Moment).Lands (Landing.all b.id edits) := by
        refine lands.congr ?_
        rintro id s ⟨z, hz, hs⟩
        by_cases hid : b.id = id
        · subst hid
          obtain rfl : y = z := Option.some.inj (hy.symm.trans hz)
          rw [Landing.on_all, Landing.on_all, same s (selected.symm.trans hs)]
        · rw [Landing.on_all_of_ne hid, Landing.on_all_of_ne hid]
      have holding' : Holding x' (es ++ Landing.all b.id edits) (⟨some me, now, w⟩ :: own) :=
        .got holding.landed lands' stores
      exact ⟨⟨_, within, holding'.landed⟩, x', y, c, holding', hid', htag', selected, hc, outcome⟩
    rcases he with ⟨unchanged, he⟩ | ⟨-, he⟩ <;> rw [he] <;> intro given
    · have looks' := given.unmoved _ List.mem_cons_self e y c stored (hyid.symm ▸ asks) hc unchanged
      exact settled (finds given) (FilterEdit.lands_unwritten rfl hy hc looks')
        ((World.stores_of_filters_eq rfl).mpr stored) hyid (FilterEdit.apply_id_etag hc).2.symm
        (Blueprint.selected_congr looks').symm
    · exact settled (finds given) (FilterEdit.lands_written hnow hy hc)
        (Store.filter?_keeping_self _ t _) ((FilterEdit.apply_id_etag hc).1.trans hyid) rfl rfl

/-- A write that is all that the client asks for. -/
theorem Holds.edit (h : Holds b [] own) (excuses : Excuses me failed []) {e : FilterEdit}
    (asks : me.call.Asks b.id e) (whole : Landing.all b.id e.edits = me.call.edits) :
    (Request.write fun s t => Store.tagOnly (s.modifyFilter t b.id (.exact b.etag) e.apply)).Accounts
      (.landing me failed) me own fun _ => Landed me.call.edits := by
  have within : [] ++ Landing.all b.id e.edits <+: me.call.edits := whole ▸ List.prefix_refl _
  refine (h.write excuses asks within fun _ _ => rfl).weaken ?_
  rintro tag own' ⟨x, -, -, holding, -⟩
  rw [← whole]
  exact holding.landed

/-- A change of a blueprint as a whole leaves its dimensions. -/
theorem FilterEdit.lands_change {mover : Option Client} {now : World} (sound : now.store.Sound)
    (t : Instant) (id : String) (change : BlueprintChange) (selector : Selector) :
    (∃ error, now.store.updateFilter t id change selector = (.error error, now.store.touched)) ∨
    ∃ c x store, now.store.updateFilter t id change selector = (.ok c, store) ∧ c.id = id ∧
      (⟨mover, now, { now with store }⟩ : Moment).Lands [] ∧ World.Stores { now with store } x ∧
        x.id = c.id ∧ x.etag = c.etag ∧ x.selected = c.selected := by
  rw [Store.updateFilter_eq_modifyFilter]
  rcases Store.modifyFilter_cases sound t id selector (.change change) with
    ⟨error, he⟩ | ⟨y, c, hy, -, hc, ⟨-, he⟩ | ⟨-, he⟩⟩
  · exact Or.inl ⟨error, he⟩
  · refine Or.inr ⟨c, y, _, he, (apply_id_etag hc).1.trans (sound.id_eq hy), ?_⟩
    refine ⟨.of_still rfl, (World.stores_of_filters_eq rfl).mpr (World.stores_of_filter? sound hy),
      (apply_id_etag hc).1.symm, (apply_id_etag hc).2.symm, ?_⟩
    rw [apply_change hc]
    rfl
  · refine Or.inr ⟨now.store.restamped t c, now.store.restamped t c, _, he,
      (apply_id_etag hc).1.trans (sound.id_eq hy), ?_⟩
    exact ⟨lands_written sound hy hc, Store.filter?_keeping_self _ t _, rfl, rfl, rfl⟩

namespace Landed

variable (h : Landed es own)
include h

theorem holds {m : Moment} {x : Blueprint} (lands : m.Lands []) (stored : m.after.Stores x)
    (hid : x.id = b.id) (htag : x.etag = b.etag) (same : x.selected = b.selected) :
    Holds b es (m :: own) := by
  have got := Holding.got h lands stored
  rw [List.append_nil] at got
  exact ⟨x, got, hid, htag, same⟩

variable (excuses : Excuses me failed es)
include excuses

theorem act {f : World → α × World}
    (still : ∀ now, (f now).2.store.backend.filters = now.store.backend.filters) :
    (Request.act f).Accounts (.landing me failed) me own fun _ => Landed es :=
  Request.accounts_action fun now _ _ =>
    ⟨⟨es, excuses.within, h.still (still now)⟩, h.still (still now)⟩

theorem modifyOutput {change : Output → Except δ (Output × α)} (t : Instant) (id : String)
    (refused : StoreError → δ) :
    (Request.access (·.modifyOutput t id refused change)).Accounts (.landing me failed) me own
      fun _ => Landed es := by
  refine h.act excuses fun now => ?_
  rcases now.store.modifyOutput_cases t id refused change with ⟨error, he⟩ | ⟨o, p, -, -, he⟩ <;>
    simp only [he] <;> rfl

theorem change {t : Instant} {id : String} (change : BlueprintChange) (selector : Selector) :
    (Request.access fun s => s.updateFilter t id change selector).Accounts (.landing me failed) me own
      (Step.Outcome (fun c own => c.id = id ∧ Holds c es own) fun _ => Landed es) := by
  refine excuses.landed.access h ?_
  intro now hnow
  rcases FilterEdit.lands_change hnow t id change selector with
    ⟨error, he⟩ | ⟨c, x, store, he, hid, lands, stored, same⟩ <;> rw [he]
  · exact ⟨rfl, rfl⟩
  · have holds := h.holds lands stored same.1 same.2.1 same.2.2
    exact fun _ => ⟨⟨es, excuses.within, holds.landed⟩, hid, holds⟩

theorem find (id : String) (selector : Selector) :
    (Request.access (·.getFilter id selector)).Accounts (.landing me failed) me own
      (Step.Outcome (fun b own => b.id = id ∧ Holds b es own) fun _ => Landed es) := by
  refine excuses.landed.access h ?_
  intro now hnow
  rcases Store.getFilter_cases hnow id selector with ⟨error, he⟩ | ⟨b, hb, -, he⟩ <;> rw [he]
  · exact ⟨rfl, rfl⟩
  · intro _
    let left : World := { now with store := now.store.touched }
    have stored : left.Stores b :=
      (World.stores_of_filters_eq rfl).mpr (World.stores_of_filter? hnow hb)
    have holds := h.holds (m := ⟨some me, now, left⟩) (.of_still rfl) stored rfl rfl rfl
    exact ⟨⟨es, excuses.within, holds.landed⟩, hnow.id_eq hb, holds⟩

theorem writeChange (id : String) (change : BlueprintChange) (selector : Selector) :
    (Request.write fun s t => s.updateFilter t id change selector).Accounts (.landing me failed) me own
      fun _ => Landed es := by
  refine (excuses.landed.now h).bind ?_
  intro t own₁ h₁
  refine (h₁.change excuses change selector).bind ?_
  intro r own₂ h₂
  cases r with
  | ok c => exact Request.accounts_pure h₂.2.landed
  | error e => exact excuses.landed.fail h₂ (ServiceError.carriedOut_ofStore e)

theorem addOutput (o : Output) : (Request.write fun s t => s.addOutput t o).Accounts
    (.landing me failed) me own fun _ => Landed es := by
  refine excuses.landed.write h ?_
  intro t own landed now _
  rcases now.store.addOutput_cases t o with ⟨error, he⟩ | ⟨-, he⟩ <;> rw [he]
  · exact ⟨rfl, rfl⟩
  · exact fun _ => ⟨⟨es, excuses.within, landed.still rfl⟩, landed.still rfl⟩

/-- A new blueprint changes no selection; its own has each name once. -/
theorem addFilter {b : Instant → Blueprint} (distinct : ∀ t, ((b t).dimensions.map (·.name)).Nodup) :
    (Request.write fun s t => s.addFilter t (b t)).Accounts (.landing me failed) me own
      fun _ => Landed es := by
  refine excuses.landed.write h ?_
  intro t own landed now hnow
  rcases Store.addFilter_cases hnow t (b t) with ⟨error, he⟩ | ⟨free, he⟩ <;> rw [he]
  · exact ⟨rfl, rfl⟩
  · intro _
    have lands : (⟨some me, now, { now with
        store := now.store.keeping t (now.store.stampedFilter t (b t)) }⟩ : Moment).Lands [] :=
      .of_keeping free (distinct t)
    have landed' := landed.next lands
    rw [List.append_nil] at landed'
    exact ⟨⟨es, excuses.within, landed'⟩, landed'⟩

end Landed

namespace Blueprints

variable (h : Landed es own) (excuses : Excuses me failed es)
include h excuses

theorem lands_promote (b : Blueprint) :
    (promote b).Accounts (.landing me failed) me own fun c own => c.id = b.id ∧ Holds c es own := by
  refine (excuses.landed.ask h _).bind ?_
  intro version own₁ h₁
  cases version with
  | error e =>
    exact Request.accounts_ite (fun _ => excuses.landed.fail h₁ rfl)
      fun _ => excuses.landed.fail h₁ (ServiceError.carriedOut_ofCatalog e)
  | ok version =>
    refine (excuses.landed.now h₁).bind ?_
    intro t own₂ h₂
    refine (h₂.change excuses _ _).bind ?_
    intro promoted own₃ h₃
    cases promoted with
    | ok promoted => exact Request.accounts_pure h₃
    | error error =>
      cases error with
      | conflict id =>
        refine (Landed.find h₃ excuses _ _).bind ?_
        intro current own₄ h₄
        cases current with
        | ok current =>
          exact Request.accounts_ite (fun _ => Request.accounts_pure h₄)
            fun _ => excuses.landed.fail h₄.2.landed rfl
        | error error =>
          cases error with
          | filterNotFound id => exact excuses.landed.fail h₄ rfl
          | _ => exact excuses.landed.fail h₄ (ServiceError.carriedOut_ofStore _)
      | _ => exact excuses.landed.fail h₃ rfl

/-- Whatever a reader gets it has in its hands. -/
theorem lands_get (id : String) (selector : Selector) (caller : Caller) :
    (get id selector caller).Accounts (.landing me failed) me own
      fun b own => b.id = id ∧ Holds b es own := by
  have reads : (Request.read (·.getFilter id selector)).Accounts (.landing me failed) me own
      fun b own => b.id = id ∧ Holds b es own := by
    refine (h.find excuses id selector).bind ?_
    intro r own' hr
    cases r with
    | ok b => exact Request.accounts_pure hr
    | error e => exact excuses.landed.fail hr (ServiceError.carriedOut_ofStore e)
  refine reads.bind ?_
  rintro b own' ⟨rfl, h'⟩
  exact Request.accounts_ite (fun _ => Request.accounts_pure ⟨rfl, h'⟩)
    fun _ => lands_promote h'.landed excuses b

theorem lands_submit (b : Blueprint) :
    (submit b).Accounts (.landing me failed) me own fun _ => Landed es := by
  refine Request.accounts_ite (fun _ => excuses.landed.fail h rfl) fun _ => ?_
  refine (excuses.landed.now h).bind ?_
  intro time own₁ h₁
  refine (excuses.landed.drawId h₁).bind ?_
  intro outputId own₂ h₂
  refine (h₂.addOutput excuses _).bind ?_
  intro _ own₃ h₃
  refine (h₃.writeChange excuses b.id _ _).bind ?_
  intro c own₄ h₄
  refine (Landed.act h₄ excuses fun _ => rfl).bind ?_
  intro _ own₅ h₅
  refine (Landed.act h₅ excuses fun _ => rfl).bind ?_
  intro result own₆ h₆
  cases result with
  | ok u => exact Request.accounts_pure h₆
  | error e => exact (Landed.act h₆ excuses fun _ => rfl).bind fun _ _ h => Request.accounts_pure h

theorem lands_create (r : NewBlueprint) (andSubmit : Bool) (caller : Caller) :
    (create settings r andSubmit caller).Accounts (.landing me failed) me own fun _ => Landed es := by
  refine (excuses.landed.ask h _).bind ?_
  intro reply own₁ h₁
  refine (excuses.landed.answered h₁ reply).bind ?_
  intro version own₂ h₂
  refine (excuses.landed.check h₂ fun _ => carriedOut_normalise).bind ?_
  rintro dimensions own₃ ⟨normal, h₃⟩
  refine (excuses.landed.dimensions h₃ settings.limits r.dataset dimensions).bind ?_
  intro _ own₄ h₄
  refine (excuses.landed.drawId h₄).bind ?_
  intro id own₅ h₅
  refine (h₅.addFilter excuses fun _ => (normalise_distinct normal).1).bind ?_
  intro stored own₆ h₆
  refine (Landed.act h₆ excuses fun _ => rfl).bind ?_
  intro _ own₇ h₇
  exact Request.accounts_ite (fun _ => lands_submit h₇ excuses stored)
    fun _ => Request.accounts_pure h₇

theorem lands_update (id : String) (u : BlueprintUpdate) (andSubmit : Bool) (selector : Selector)
    (caller : Caller) :
    (update settings id u andSubmit selector caller).Accounts (.landing me failed) me own
      fun _ => Landed es := by
  refine (excuses.landed.getFilter h id selector).bind ?_
  intro current own₁ h₁
  refine Request.accounts_ite (fun _ => excuses.landed.fail h₁ rfl) fun _ => ?_
  refine (excuses.landed.check h₁ fun _ => u.carriedOut_validEvents).bind ?_
  rintro events own₂ ⟨-, h₂⟩
  have submits (updated : Blueprint) (own' : List Moment) (h' : Landed es own') :
      (if andSubmit then submit updated else pure updated).Accounts (.landing me failed) me own'
        fun _ => Landed es :=
    Request.accounts_ite (fun _ => lands_submit h' excuses updated) fun _ => Request.accounts_pure h'
  have finishes (change : BlueprintChange) (own' : List Moment) (h' : Landed es own') :
      (if andSubmit && current.isSubmitted then Request.fail (.alreadySubmitted current.id)
        else if change.isEmpty then
          pure current >>= fun updated => if andSubmit then submit updated else pure updated
        else
          (Request.write fun s t => s.updateFilter t id change (.exact current.etag)) >>=
            fun updated => if andSubmit then submit updated else pure updated).Accounts
        (.landing me failed) me own' fun _ => Landed es := by
    refine Request.accounts_ite (fun _ => excuses.landed.fail h' rfl) fun _ => ?_
    refine Request.accounts_ite (fun _ => submits current own' h') fun _ => ?_
    exact (h'.writeChange excuses id change _).bind fun updated own'' => submits updated own''
  cases hversion : u.newVersion? current with
  | some version =>
    refine (excuses.landed.moveTo h₂ current version caller).bind ?_
    rintro move own₃ ⟨-, h₃⟩
    exact finishes { move with events } own₃ h₃
  | none => exact finishes { events } own₂ h₂

end Blueprints

namespace Outputs

variable (h : Landed es own) (excuses : Excuses me failed es)
include h excuses

theorem lands_get (id : String) (caller : Caller) :
    (get id caller).Accounts (.landing me failed) me own fun _ => Landed es := by
  have reads : (Request.read (·.getOutput id)).Accounts (.landing me failed) me own
      fun _ => Landed es := by
    refine excuses.landed.read h ?_
    intro now _
    rcases now.store.getOutput_cases id with ⟨error, he⟩ | ⟨o, -, he⟩ <;> rw [he]
    · exact ⟨rfl, rfl⟩
    · exact fun _ => ⟨⟨es, excuses.within, h.still rfl⟩, h.still rfl⟩
  refine reads.bind ?_
  intro o own₁ h₁
  exact Request.accounts_ite (fun _ => excuses.landed.fail h₁ rfl) fun _ => Request.accounts_pure h₁

theorem lands_update (refused : ∀ e own, Landed es own → failed e own) (id : String)
    (u : OutputUpdate) (caller : Caller) :
    (update settings id u caller).Accounts (.landing me failed) me own fun _ => Landed es := by
  refine Request.accounts_ite (fun _ => excuses.landed.fail h rfl) fun _ => ?_
  refine (excuses.landed.now h).bind ?_
  intro t own₁ h₁
  refine (h₁.modifyOutput excuses t id _).bind ?_
  intro r own₂ h₂
  refine (Request.accounts_result (p := fun _ => Landed es) (fun _ _ => h₂)
    fun e _ => refused e own₂ h₂).bind ?_
  rintro ⟨o, completed⟩ own₃ h₃
  refine Request.accounts_ite ?_ fun _ => Request.accounts_pure h₃
  intro _
  exact (Landed.act h₃ excuses fun _ => rfl).bind fun _ _ h => Request.accounts_pure h

theorem lands_addEvent (id : String) (r : EventRequest) (caller : Caller) :
    (addEvent id r caller).Accounts (.landing me failed) me own
      fun _ => Landed es := by
  refine Request.accounts_ite (fun _ => excuses.landed.fail h rfl) fun _ => ?_
  refine (excuses.landed.check h fun _ => ServiceError.carriedOut_of_mapError fun _ => rfl).bind ?_
  rintro e own₁ ⟨-, h₁⟩
  have writes : (Request.write fun s t => s.addOutputEvent t id e).Accounts (.landing me failed) me own₁
      fun _ => Landed es := by
    refine excuses.landed.write h₁ ?_
    intro t own' h' now _
    rcases now.store.addOutputEvent_cases t id e with ⟨error, he⟩ | ⟨o, p, -, -, he⟩ <;> rw [he]
    · exact ⟨rfl, rfl⟩
    · exact fun _ => ⟨⟨es, excuses.within, h'.still rfl⟩, h'.still rfl⟩
  exact writes.bind fun _ _ h => Request.accounts_pure h

end Outputs

namespace Blueprint

variable {y c : Blueprint} {d : Dimension}

theorem selected?_of_modifyDimension? {name : String} {f : Dimension → Dimension}
    (edited : y.modifyDimension? name f = some c) (named : ∀ d, (f d).name = d.name)
    (found : y.dimension? name = some d) : c.selected? name = some (f d).selected := by
  rw [modifyDimension?_eq_withOptions found f named, Option.some.injEq] at edited
  rw [← edited, selected?_eq, dimension?_withOptions found]
  exact congrArg some (Prod.ext (named d).symm rfl)

theorem selected?_addOptions {options : List String} (h : y.selected? d.name = some d.selected)
    (applied : (FilterEdit.addOptions d.name options).apply y = .ok c) :
    c.selected? d.name = some (d.insert options).selected := by
  rw [selected?_eq, Option.map_eq_some_iff] at h
  obtain ⟨old, found, same⟩ := h
  obtain ⟨name, selected⟩ := Prod.ext_iff.mp same
  rw [selected?_of_modifyDimension? (FilterEdit.apply_addOptions applied) (fun _ => rfl) found,
    Dimension.selected_insert, Dimension.selected_insert]
  exact congrArg some (Prod.ext name (congrArg (· ∪ options.toFinset) selected))

theorem selected?_removeOptions {options : List String} (h : y.selected? d.name = some d.selected)
    (applied : (FilterEdit.removeOptions d.name options).apply y = .ok c) :
    c.selected? d.name = some (d.erase options).selected := by
  rw [selected?_eq, Option.map_eq_some_iff] at h
  obtain ⟨old, found, same⟩ := h
  obtain ⟨name, selected⟩ := Prod.ext_iff.mp same
  rw [selected?_of_modifyDimension? (FilterEdit.apply_removeOptions applied) (fun _ => rfl) found,
    Dimension.selected_erase, Dimension.selected_erase]
  exact congrArg some (Prod.ext name (congrArg (· \ options.toFinset) selected))

end Blueprint

namespace Selections

section

variable (h : Landed es own) (excuses : Excuses me failed es)
include h excuses

theorem lands_list (id : String) (selector : Selector) (caller : Caller) :
    (list id selector caller).Accounts (.landing me failed) me own fun _ => Landed es :=
  (Blueprints.lands_get h excuses id selector caller).bind
    fun _ _ h => Request.accounts_pure h.2.landed

theorem lands_get (id name : String) (selector : Selector) (caller : Caller) :
    (get id name selector caller).Accounts (.landing me failed) me own fun _ => Landed es := by
  refine (Blueprints.lands_get h excuses id selector caller).bind ?_
  rintro b own₁ ⟨-, h₁⟩
  refine (excuses.holds.find h₁ b name).bind ?_
  intro d own₂ h₂
  exact Request.accounts_pure h₂.2.landed

theorem lands_options (id name : String) (selector : Selector) (caller : Caller) :
    (options id name selector caller).Accounts (.landing me failed) me own fun _ => Landed es :=
  (lands_get h excuses id name selector caller).bind fun _ _ h => Request.accounts_pure h

theorem lands_option (id name o : String) (selector : Selector) (caller : Caller) :
    (option id name o selector caller).Accounts (.landing me failed) me own fun _ => Landed es :=
  (lands_get h excuses id name selector caller).bind fun _ _ h =>
    Request.accounts_ite (fun _ => Request.accounts_pure h) fun _ => excuses.landed.fail h rfl

end

section

variable (h : Landed [] own) (excuses : Excuses me failed [])
include h excuses

theorem lands_add {id : String} {d : Dimension} {selector : Selector}
    (call : me.call = .addDimension id d selector) (caller : Caller) :
    (add settings id d selector caller).Accounts (.landing me failed) me own
      fun _ => Landed me.call.edits := by
  have distinct : (Dimension.distinct d.options).toFinset = d.options.toFinset.erase "" := by
    ext o
    simp [Dimension.mem_distinct, and_comm]
  refine (Blueprints.lands_get h excuses id selector caller).bind ?_
  rintro b own₁ ⟨rfl, h₁⟩
  refine (excuses.holds.editable h₁ b).bind ?_
  intro _ own₂ h₂
  refine (excuses.holds.dimension h₂ settings.limits b.dataset d.name _).bind ?_
  intro _ own₃ h₃
  have asks : me.call.Asks b.id (.addDimension { d with options := Dimension.distinct d.options }) :=
    call ▸ .addDimension b.id d selector
  refine (h₃.edit excuses asks ?_).bind fun _ _ landed => Request.accounts_pure landed
  rw [call, FilterEdit.edits, distinct]
  rfl

theorem lands_remove {id name : String} {selector : Selector}
    (call : me.call = .removeDimension id name selector) (caller : Caller) :
    (remove id name selector caller).Accounts (.landing me failed) me own
      fun _ => Landed me.call.edits := by
  refine (Blueprints.lands_get h excuses id selector caller).bind ?_
  rintro b own₁ ⟨rfl, h₁⟩
  refine (excuses.holds.editable h₁ b).bind ?_
  intro _ own₂ h₂
  refine (excuses.holds.find h₂ b name).bind ?_
  rintro d own₃ ⟨-, h₃⟩
  have asks : me.call.Asks b.id (.removeDimension name) := call ▸ .removeDimension b.id name selector
  exact (h₃.edit excuses asks (by rw [call]; rfl) :)

theorem lands_addOption {id name o : String} {selector : Selector}
    (call : me.call = .addOption id name o selector) (caller : Caller) :
    (addOption settings id name o selector caller).Accounts (.landing me failed) me own
      fun _ => Landed me.call.edits := by
  refine (Blueprints.lands_get h excuses id selector caller).bind ?_
  rintro b own₁ ⟨rfl, h₁⟩
  refine (excuses.holds.find h₁ b name).bind ?_
  rintro d own₂ ⟨found, h₂⟩
  refine (excuses.holds.editable h₂ b).bind ?_
  intro _ own₃ h₃
  refine Request.accounts_ite (fun selected => ?_) fun _ => ?_
  · -- the option landed when the blueprint was read
    have idle (s : Selection) (hs : b.Shows s) : s.editAll? [.insert name {o}] = some s := by
      have known : (name, d.options.toFinset) ∈ s.dimensions :=
        hs.mem_of_selected? ((b.selected?_eq name).trans (congrArg _ found))
      have member : o ∈ d.options := List.contains_iff_mem.mp selected
      rw [Selection.editAll?_singleton]
      exact Selection.insert_idle known (by simpa using member)
    rw [call]
    exact Request.accounts_pure (h₃.append idle).landed
  · refine (excuses.holds.dimension h₃ settings.limits b.dataset name [o]).bind ?_
    intro _ own₄ h₄
    have asks : me.call.Asks b.id (.addOptions name [o]) := call ▸ .addOption b.id name o selector
    exact (h₄.edit excuses asks (by rw [call]; rfl) :)

theorem lands_removeOption {id name o : String} {selector : Selector}
    (call : me.call = .removeOption id name o selector) (caller : Caller) :
    (removeOption id name o selector caller).Accounts (.landing me failed) me own
      fun _ => Landed me.call.edits := by
  refine (Blueprints.lands_get h excuses id selector caller).bind ?_
  rintro b own₁ ⟨rfl, h₁⟩
  refine (excuses.holds.find h₁ b name).bind ?_
  rintro d own₂ ⟨-, h₂⟩
  refine Request.accounts_ite (fun _ => excuses.holds.fail h₂ rfl) fun _ => ?_
  refine (excuses.holds.editable h₂ b).bind ?_
  intro _ own₃ h₃
  have asks : me.call.Asks b.id (.removeOptions name [o]) := call ▸ .removeOption b.id name o selector
  exact (h₃.edit excuses asks (by rw [call]; rfl) :)

end

/-- A patch has in its hands a blueprint of which this dimension is what is selected under its name. -/
def Mirrors (id : String) (d : Dimension) (etag : String) (es : List Landing) (own : List Moment) :
    Prop :=
  ∃ x, Holds x es own ∧ x.id = id ∧ x.etag = etag ∧ x.selected? d.name = some d.selected

namespace Mirrors

variable {id : String} {d : Dimension} {etag : String} (h : Mirrors id d etag es own)
include h

theorem landed : Landed es own := by
  obtain ⟨x, holds, -⟩ := h
  exact holds.landed

theorem still {m : Moment} (still : m.Still) : Mirrors id d etag es (m :: own) := by
  obtain ⟨x, holds, mirrors⟩ := h
  exact ⟨x, holds.still still, mirrors⟩

theorem append {edits : List DimensionEdit}
    (idle : ∀ s : Selection, (d.name, d.options.toFinset) ∈ s.dimensions → s.editAll? edits = some s) :
    Mirrors id d etag (es ++ Landing.all id edits) own := by
  obtain ⟨x, holds, rfl, htag, mirrors⟩ := h
  exact ⟨x, holds.append fun s hs => idle s (hs.mem_of_selected? mirrors), rfl, htag, mirrors⟩

end Mirrors

/-- A write lands the edit of the dimension in hand. -/
theorem lands_edit {id : String} {d : Dimension} {etag : String} (h : Mirrors id d etag es own)
    (excuses : Excuses me failed es) {e : FilterEdit} (asks : me.call.Asks id e) (d' : Dimension)
    {edits : List DimensionEdit} (within : es ++ Landing.all id edits <+: me.call.edits)
    (same : ∀ s : Selection, (d.name, d.options.toFinset) ∈ s.dimensions →
      s.editAll? e.edits = s.editAll? edits)
    (mirrors : ∀ y c, y.selected? d.name = some d.selected → e.apply y = .ok c →
      c.selected? d'.name = some d'.selected) :
    (edit id d' etag e).Accounts (.landing me failed) me own
      fun r own => r.1 = d' ∧ Mirrors id d' r.2 (es ++ Landing.all id edits) own := by
  obtain ⟨x, holds, rfl, rfl, selected⟩ := h
  refine (holds.write excuses asks within fun s hs => same s (hs.mem_of_selected? selected)).bind ?_
  rintro tag own₁ ⟨x', y, c, holding, hid, htag, finds, applied, outcome⟩
  have found : y.selected? d.name = some d.selected := by
    rw [← selected, Blueprint.selected?, Blueprint.selected?, finds]
  have left : x'.selected? d'.name = some d'.selected := by
    rw [← mirrors y c found applied, Blueprint.selected?, Blueprint.selected?, outcome]
  exact Request.accounts_pure ⟨rfl, x', ⟨x', holding, rfl, rfl, rfl⟩, hid, htag, left⟩

/-- One operation lands, whether or not there is anything to write. -/
theorem lands_apply {id : String} {d : Dimension} {etag : String} {operations : List PatchOperation}
    {selector : Selector} {o : PatchOperation} (hid : b.id = id) (h : Mirrors id d etag es own)
    (excuses : Excuses me failed es) (call : me.call = .patch id d.name operations selector)
    (ho : o ∈ operations) (within : es ++ Landing.all id [o.edit d.name] <+: me.call.edits) :
    (apply settings b d etag o).Accounts (.landing me failed) me own fun r own => r.1.name = d.name ∧
        Mirrors id r.1 r.2 (es ++ Landing.all id [o.edit d.name]) own := by
  subst hid
  cases action : o.action with
  | remove =>
    have edits : o.edit d.name = .erase d.name (operands o).toFinset := by
      simp only [PatchOperation.edit, action, operands_eq]
    rw [edits] at within ⊢
    rw [apply_remove action]
    refine Request.accounts_ite (fun nothing => ?_) fun _ => ?_
    · refine Request.accounts_pure ⟨rfl, h.append fun s hs => ?_⟩
      rw [Selection.editAll?_singleton, List.isEmpty_iff.mp nothing]
      exact Selection.erase_idle hs (by simp)
    · have asks : me.call.Asks b.id (.removeOptions d.name (operands o)) :=
        call ▸ .remove b.id d.name selector ho action
      refine (lands_edit h excuses asks (d.erase (operands o)) within (fun _ _ => rfl)
        fun _ _ => Blueprint.selected?_removeOptions).weaken ?_
      rintro ⟨_, tag⟩ own' ⟨rfl, h'⟩
      exact ⟨rfl, h'⟩
  | add =>
    have edits : o.edit d.name = .insert d.name (operands o).toFinset := by
      simp only [PatchOperation.edit, action, operands_eq]
    have known : d.options.toFinset ∪ ((operands o).filter fun v => !d.has v).toFinset =
        d.options.toFinset ∪ (operands o).toFinset := by
      ext v
      by_cases hv : v ∈ d.options <;> simp [Dimension.has, hv]
    have asks : me.call.Asks b.id
        (.addOptions d.name ((operands o).filter fun v => !d.has v)) :=
      call ▸ .add b.id d.name selector ho action d
    rw [edits] at within ⊢
    rw [apply_add action]
    -- from here on it only matters that `new` and the operands make the same of the dimension
    generalize ((operands o).filter fun v => !d.has v) = new at known asks ⊢
    refine Request.accounts_ite (fun nothing => ?_) fun _ => ?_
    · refine Request.accounts_pure ⟨rfl, h.append fun s hs => ?_⟩
      rw [Selection.editAll?_singleton]
      exact Selection.insert_idle hs (by rw [← known, List.isEmpty_iff.mp nothing]; simp)
    · have steady : (Terms.landing me failed).Steady (Mirrors b.id d etag es) :=
        excuses.steady (fun h hm => h.still hm) Mirrors.landed
      refine (steady.dimension h settings.limits b.dataset d.name new).bind ?_
      intro _ own₁ h₁
      have same (s : Selection) (hs : (d.name, d.options.toFinset) ∈ s.dimensions) :
          s.editAll? (FilterEdit.addOptions d.name new).edits =
            s.editAll? [.insert d.name (operands o).toFinset] := by
        rw [FilterEdit.edits, Selection.editAll?_singleton, Selection.editAll?_singleton]
        exact Selection.insert_congr hs known
      refine (lands_edit h₁ excuses asks (d.insert new) within same
        fun _ _ => Blueprint.selected?_addOptions).weaken ?_
      rintro ⟨_, tag⟩ own' ⟨rfl, h'⟩
      exact ⟨rfl, h'⟩

/-- A patch that ends, be it half-way, has landed what it reports as carried out. -/
theorem lands_applyAll {id name etag : String} {d : Dimension}
    {operations done rest : List PatchOperation} {selector : Selector} (hid : b.id = id)
    (hname : d.name = name) (h : Mirrors id d etag (landings id name done) own)
    (call : me.call = .patch id name operations selector) (whole : done ++ rest = operations) :
    (applyAll settings b done d etag rest).Accounts (.landing me fun e => me.Ended (.error e)) me own
      fun r => me.Ended (.ok (.patched r.1 r.2)) := by
  have edits : me.call.edits = landings id name operations := by rw [call]; rfl
  induction rest generalizing done d etag own with
  | nil =>
    rw [List.append_nil] at whole
    subst whole
    refine Request.accounts_pure ⟨?_, ?_⟩ <;> rw [call]
    · exact List.prefix_refl _
    · exact h.landed
  | cons o rest ih =>
    subst hname
    have carried : landings id d.name done <+: me.call.edits := by
      rw [edits]
      exact landings_prefix id d.name (whole ▸ List.prefix_append done _)
    have next : landings id d.name (done ++ [o]) <+: me.call.edits := by
      rw [edits]
      exact landings_prefix id d.name ⟨rest, by rw [← whole, List.append_assoc]; rfl⟩
    have applied : (apply settings b d etag o).Accounts
        (.landing me fun _ => Landed (landings id d.name done)) me own fun r own =>
          r.1.name = d.name ∧ Mirrors id r.1 r.2 (landings id d.name (done ++ [o])) own := by
      rw [landings_append] at next ⊢
      exact lands_apply hid h ⟨carried, fun _ _ _ landed => landed⟩ call (by simp [← whole]) next
    refine applied.attempt.bind ?_
    intro r own₁ h₁
    cases r with
    | error cause =>
      rw [call] at carried
      refine Request.accounts_fail _ ⟨?_, ?_⟩ <;> rw [call]
      · exact carried
      · exact h₁
    | ok r =>
      obtain ⟨named, h₁⟩ := h₁
      have counts : (Request.count (.patchOperations o.action)).Accounts
          (.landing me fun e => me.Ended (.error e)) me own₁
            fun _ => Mirrors id r.1 r.2 (landings id d.name (done ++ [o])) := by
        refine Request.accounts_action fun now _ _ => ?_
        let counted : World := { now with counters := now.counters.increment (.patchOperations o.action) }
        have kept := h₁.still (m := ⟨some me, now, counted⟩) rfl
        exact ⟨⟨_, next, kept.landed⟩, kept⟩
      refine counts.bind ?_
      intro _ own₂ h₂
      exact ih named h₂ (by rw [← whole, List.append_assoc]; rfl)

end Selections

theorem ServiceCall.reported_eq_nil (call : ServiceCall) {e : ServiceError} (plain : e.carriedOut = []) :
    call.reported (.error e) = [] := by
  cases call with
  | patch id name operations selector => rw [reported, plain]; rfl
  | _ => rfl

theorem Client.excuses (me : Client) : Excuses me (fun e => me.Ended (.error e)) [] where
  within := List.nil_prefix
  failed e own plain landed := by
    have nothing := me.call.reported_eq_nil plain
    exact ⟨nothing ▸ List.nil_prefix, nothing ▸ landed⟩

/-- A patch that fails half-way has landed just what it reports. -/
theorem Selections.lands_patch {id name : String} {operations : List PatchOperation}
    {selector : Selector} (h : Landed [] own) (call : me.call = .patch id name operations selector)
    (caller : Caller) : (patch settings id name operations selector caller).Accounts
      (.landing me fun e => me.Ended (.error e)) me own fun r => me.Ended (.ok (.patched r.1 r.2)) := by
  have excuses := me.excuses
  refine (excuses.landed.check h fun _ => ServiceError.carriedOut_of_mapError fun _ => rfl).bind ?_
  rintro _ own₁ ⟨-, h₁⟩
  refine (Blueprints.lands_get h₁ excuses id selector caller).bind ?_
  rintro b own₂ ⟨rfl, h₂⟩
  refine (excuses.holds.find h₂ b name).bind ?_
  rintro d own₃ ⟨found, h₃⟩
  refine (excuses.holds.editable h₃ b).bind ?_
  intro _ own₄ h₄
  have named : d.name = name := by simpa using List.find?_some found
  subst named
  have selected : b.selected? d.name = some d.selected := (b.selected?_eq d.name).trans (congrArg _ found)
  exact lands_applyAll rfl rfl ⟨b, h₄, rfl, rfl, selected⟩ call (List.nil_append operations)

/-- At any time a request has landed the first of the edits that it asks for, and when it ends just
those that it reports. -/
theorem ServiceCall.lands_request (me : Client) : (me.call.request settings me.caller).Accounts
    (.landing me fun e => me.Ended (.error e)) me [] fun a => me.Ended (.ok a) := by
  have excuses := me.excuses
  obtain ⟨place, caller, call⟩ := me
  cases call with
  | create r andSubmit =>
    exact (Blueprints.lands_create .start excuses r andSubmit caller).bind
      fun _ _ h => Request.accounts_pure ⟨List.nil_prefix, h⟩
  | get id selector =>
    exact (Blueprints.lands_get .start excuses id selector caller).bind
      fun _ _ h => Request.accounts_pure ⟨List.nil_prefix, h.2.landed⟩
  | update id u andSubmit selector =>
    exact (Blueprints.lands_update .start excuses id u andSubmit selector caller).bind
      fun _ _ h => Request.accounts_pure ⟨List.nil_prefix, h⟩
  | dimensions id selector =>
    exact (Selections.lands_list .start excuses id selector caller).bind
      fun _ _ h => Request.accounts_pure ⟨List.nil_prefix, h⟩
  | dimension id name selector =>
    exact (Selections.lands_get .start excuses id name selector caller).bind
      fun _ _ h => Request.accounts_pure ⟨List.nil_prefix, h⟩
  | addDimension id d selector =>
    exact (Selections.lands_add .start excuses rfl caller).bind
      fun _ _ h => Request.accounts_pure ⟨List.prefix_refl _, h⟩
  | removeDimension id name selector =>
    exact (Selections.lands_remove .start excuses rfl caller).bind
      fun _ _ h => Request.accounts_pure ⟨List.prefix_refl _, h⟩
  | options id name selector =>
    exact (Selections.lands_options .start excuses id name selector caller).bind
      fun _ _ h => Request.accounts_pure ⟨List.nil_prefix, h⟩
  | option id name o selector =>
    exact (Selections.lands_option .start excuses id name o selector caller).bind
      fun _ _ h => Request.accounts_pure ⟨List.nil_prefix, h⟩
  | addOption id name o selector =>
    exact (Selections.lands_addOption .start excuses rfl caller).bind
      fun _ _ h => Request.accounts_pure ⟨List.prefix_refl _, h⟩
  | removeOption id name o selector =>
    exact (Selections.lands_removeOption .start excuses rfl caller).bind
      fun _ _ h => Request.accounts_pure ⟨List.prefix_refl _, h⟩
  | patch id name operations selector =>
    exact (Selections.lands_patch .start rfl caller).bind fun _ _ h => Request.accounts_pure h
  | output id =>
    exact (Outputs.lands_get .start excuses id caller).bind
      fun _ _ h => Request.accounts_pure ⟨List.nil_prefix, h⟩
  | updateOutput id u =>
    have refused (e : ServiceError) (own : List Moment) (landed : Landed [] own) :
        Client.Ended ⟨place, caller, .updateOutput id u⟩ (.error e) own := ⟨List.nil_prefix, landed⟩
    exact (Outputs.lands_update .start excuses refused id u caller).bind
      fun _ _ h => Request.accounts_pure ⟨List.nil_prefix, h⟩
  | addEvent id r =>
    exact (Outputs.lands_addEvent .start excuses id r caller).bind
      fun _ _ h => Request.accounts_pure ⟨List.nil_prefix, h⟩

end DatasetFilters
