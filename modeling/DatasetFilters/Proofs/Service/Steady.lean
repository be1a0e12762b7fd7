import DatasetFilters.Proofs.Service.Account

namespace DatasetFilters

namespace ServiceError

/-- The operations that a failure reports as carried out. -/
def carriedOut : ServiceError → List PatchOperation
  | patchFailed successful _ _ => successful
  | _ => []

theorem carriedOut_of_ne {e : ServiceError}
    (h : ∀ done tag cause, e ≠ .patchFailed done tag cause) : e.carriedOut = [] := by
  cases e with
  | patchFailed done tag cause => exact absurd rfl (h done tag cause)
  | _ => rfl

theorem carriedOut_ofStore (e : StoreError) : (ofStore e).carriedOut = [] := by
  cases e <;> rfl

theorem carriedOut_ofCatalog (e : CatalogError) : (ofCatalog e).carriedOut = [] := by
  cases e <;> rfl

theorem carriedOut_of_mapError {r : Except δ α} {f : δ → ServiceError}
    (plain : ∀ e, (f e).carriedOut = []) {e : ServiceError} (h : r.mapError f = .error e) :
    e.carriedOut = [] := by
  cases r with
  | ok a => simp [Except.mapError] at h
  | error d =>
    obtain rfl := Except.error.inj h
    exact plain d

end ServiceError

theorem Validation.carriedOut_verdict {dimension : String} {ids : List String}
    {confirmed : List Confirmation} {e : ServiceError}
    (h : verdict dimension ids confirmed = .error e) : e.carriedOut = [] := by
  unfold verdict at h
  simp only at h
  split at h
  · simp at h
  · rw [← Except.error.inj h]
    rfl

namespace Blueprints

theorem normalise_cons (seen : List String) (d : Dimension) (ds : List Dimension) :
    normalise seen (d :: ds) =
      if Text.isBlankText d.name then .error (.badRequest "dimension name is empty")
      else if seen.contains d.name then .error (.badRequest s!"duplicate dimension name: {d.name}")
      else (normalise (d.name :: seen) ds).map fun rest =>
        { d with options := Dimension.distinct d.options } :: rest := by
  rw [normalise]
  cases Text.isBlankText d.name with
  | true => rfl
  | false =>
    cases seen.contains d.name with
    | true => rfl
    | false => cases normalise (d.name :: seen) ds <;> rfl

theorem carriedOut_normalise {seen : List String} {ds : List Dimension} {e : ServiceError}
    (h : normalise seen ds = .error e) : e.carriedOut = [] := by
  induction ds generalizing seen with
  | nil => simp [normalise] at h
  | cons d ds ih =>
    rw [normalise_cons] at h
    by_cases blank : Text.isBlankText d.name = true
    · rw [if_pos blank] at h
      rw [← Except.error.inj h]
      rfl
    · rw [if_neg blank] at h
      by_cases known : seen.contains d.name = true
      · rw [if_pos known] at h
        rw [← Except.error.inj h]
        rfl
      · rw [if_neg known] at h
        cases rest : normalise (d.name :: seen) ds with
        | ok ds => simp [rest, Except.map] at h
        | error e' =>
          rw [rest] at h
          obtain rfl := Except.error.inj h
          exact ih rest

/-- A list that is normal starts with a dimension that no other names, and options each once. -/
theorem normalise_cons_ok {seen : List String} {d : Dimension} {ds ds' : List Dimension}
    (h : normalise seen (d :: ds) = .ok ds') : d.name ∉ seen ∧ ∃ rest,
      normalise (d.name :: seen) ds = .ok rest ∧
        ds' = { d with options := Dimension.distinct d.options } :: rest := by
  rw [normalise_cons] at h
  by_cases blank : Text.isBlankText d.name = true
  · simp [blank] at h
  · rw [if_neg blank] at h
    by_cases known : seen.contains d.name = true
    · rw [if_pos known] at h
      simp at h
    · rw [if_neg known] at h
      refine ⟨fun hmem => known (List.contains_iff_mem.mpr hmem), ?_⟩
      cases normal : normalise (d.name :: seen) ds with
      | error e => simp [normal, Except.map] at h
      | ok rest =>
        rw [normal] at h
        exact ⟨rest, rfl, (Except.ok.inj h).symm⟩

/-- The dimensions of a new blueprint have each name once. -/
theorem normalise_distinct {seen : List String} {ds ds' : List Dimension}
    (h : normalise seen ds = .ok ds') :
    (ds'.map (·.name)).Nodup ∧ ∀ name ∈ seen, name ∉ ds'.map (·.name) := by
  induction ds generalizing seen ds' with
  | nil =>
    obtain rfl := Except.ok.inj h
    simp
  | cons d ds ih =>
    obtain ⟨new, rest, normal, rfl⟩ := normalise_cons_ok h
    obtain ⟨distinct, apart⟩ := ih normal
    rw [List.map_cons, List.nodup_cons]
    refine ⟨⟨apart _ List.mem_cons_self, distinct⟩, ?_⟩
    intro name hname hmem
    rcases List.mem_cons.mp hmem with rfl | hmem
    · exact new hname
    · exact apart name (List.mem_cons_of_mem _ hname) hmem

end Blueprints

theorem eq_ok_of_mapError {r : Except δ α} {f : δ → ε} {a : α} (h : r.mapError f = .ok a) :
    r = .ok a := by
  cases r with
  | ok b => exact congrArg Except.ok (Except.ok.inj h)
  | error d => simp [Except.mapError] at h

theorem BlueprintUpdate.carriedOut_validEvents (u : BlueprintUpdate) {e : ServiceError}
    (h : u.validEvents = .error e) : e.carriedOut = [] :=
  ServiceError.carriedOut_of_mapError (fun _ => rfl) h

/-- How an access to the store ends for a client: it fails without a trace, or succeeds as `p` has it. -/
def Terms.Settles (terms : Terms ε) (me : Client) (own : List Moment) (p : α → List Moment → Prop)
    (now : World) : Except StoreError α × Store → Prop
  | (.error _, store) => store.backend.filters = now.store.backend.filters ∧
      store.backend.outputs = now.store.backend.outputs
  | (.ok a, store) => terms.given (⟨some me, now, { now with store }⟩ :: own) →
      terms.always (⟨some me, now, { now with store }⟩ :: own) ∧
        p a (⟨some me, now, { now with store }⟩ :: own)

/-- The moment changed neither documents nor messages, and nothing was counted. -/
structure Moment.Calm (m : Moment) : Prop extends m.Rests where
  counters : m.after.counters = m.before.counters

/-- An account that stands until something is changed, and is enough of a plain failure. -/
structure Terms.Steady (terms : Terms ServiceError) (P : List Moment → Prop) : Prop where
  calm : ∀ {own : List Moment} {m : Moment}, P own → m.Calm →
    (terms.always (m :: own) ∧ terms.asking (m :: own)) ∧ P (m :: own)
  failed : ∀ {own : List Moment} {e : ServiceError}, e.carriedOut = [] → P own → terms.failed e own

namespace Terms.Steady

variable {terms : Terms ServiceError} {P : List Moment → Prop} (steady : terms.Steady P) {me : Client}
  {own : List Moment} (h : P own)
include steady h

theorem act {f : World → α × World}
    (calm : ∀ now, now.store.Sound → (⟨some me, now, (f now).2⟩ : Moment).Calm) :
    (Request.act f).Accounts terms me own fun _ => P := by
  refine Request.accounts_action fun now hnow _ => ?_
  obtain ⟨⟨always, -⟩, hP⟩ := steady.calm h (calm now hnow)
  exact ⟨always, hP⟩

theorem now : Request.now.Accounts terms me own fun _ => P :=
  steady.act h fun _ _ => ⟨⟨rfl, rfl, rfl⟩, rfl⟩

theorem drawId : Request.drawId.Accounts terms me own fun _ => P :=
  steady.act h fun _ _ => ⟨⟨rfl, rfl, rfl⟩, rfl⟩

theorem ask (q : Query) : (Request.ask q).Accounts terms me own fun _ => P := by
  refine Request.accounts_question fun now _ => ?_
  obtain ⟨always, hP⟩ := steady.calm (m := ⟨some me, now, now⟩) h ⟨⟨rfl, rfl, rfl⟩, rfl⟩
  exact ⟨always, fun _ => hP⟩

theorem fail {e : ServiceError} (plain : e.carriedOut = []) {p : α → List Moment → Prop} :
    (Request.fail e).Accounts terms me own p :=
  Request.accounts_fail e (steady.failed plain h)

theorem check {r : Except ServiceError α} (plain : ∀ e, r = .error e → e.carriedOut = []) :
    (Request.ofExcept r).Accounts terms me own fun a own => r = .ok a ∧ P own :=
  Request.accounts_result (fun _ ha => ⟨ha, h⟩) fun e he => steady.failed (plain e he) h

theorem answered (r : CatalogReply α) : (Request.answered r).Accounts terms me own fun _ => P :=
  (steady.check h fun _ => ServiceError.carriedOut_of_mapError ServiceError.carriedOut_ofCatalog).weaken
    fun _ _ h => h.2

/-- An access to the store that settles. -/
theorem access {f : Store → Except StoreError α × Store} {p : α → List Moment → Prop}
    (hf : ∀ now : World, now.store.Sound → terms.Settles me own p now (f now.store)) :
    (Request.access f).Accounts terms me own (Step.Outcome p fun _ => P) := by
  refine Request.accounts_action ?_
  intro now hnow given
  have settled := hf now hnow
  generalize f now.store = ended at settled given ⊢
  obtain ⟨r, store⟩ := ended
  cases r with
  | ok a => exact settled given
  | error e =>
    obtain ⟨⟨always, -⟩, hP⟩ := steady.calm h
      (m := ⟨some me, now, { now with store }⟩) ⟨⟨settled.1, settled.2, rfl⟩, rfl⟩
    exact ⟨always, hP⟩

theorem read {f : Store → Except StoreError α × Store} {p : α → List Moment → Prop}
    (hf : ∀ now : World, now.store.Sound → terms.Settles me own p now (f now.store)) :
    (Request.read f).Accounts terms me own p := by
  refine (steady.access h hf).bind ?_
  intro r own' hr
  cases r with
  | ok a => exact Request.accounts_pure hr
  | error e => exact Request.accounts_fail _ (steady.failed (ServiceError.carriedOut_ofStore e) hr)

theorem write {f : Store → Instant → Except StoreError α × Store} {p : α → List Moment → Prop}
    (hf : ∀ t own, P own → ∀ now : World, now.store.Sound →
      terms.Settles me own p now (f now.store t)) : (Request.write f).Accounts terms me own p :=
  (steady.now h).bind fun t own' h' => steady.read h' (hf t own' h')

theorem getFilter (id : String) (selector : Selector) :
    (Request.read (·.getFilter id selector)).Accounts terms me own fun _ => P := by
  refine steady.read h ?_
  intro now hnow
  rcases Store.getFilter_cases hnow id selector with ⟨error, he⟩ | ⟨b, -, -, he⟩ <;> rw [he]
  · exact ⟨rfl, rfl⟩
  · intro _
    obtain ⟨⟨always, -⟩, hP⟩ := steady.calm h
      (m := ⟨some me, now, { now with store := now.store.touched }⟩) ⟨⟨rfl, rfl, rfl⟩, rfl⟩
    exact ⟨always, hP⟩

theorem editable (b : Blueprint) : (Selections.ensureEditable b).Accounts terms me own fun _ => P :=
  Request.accounts_ite (fun _ => steady.fail h rfl) fun _ => Request.accounts_pure h

theorem find (b : Blueprint) (name : String) : (Selections.find b name).Accounts terms me own
    fun d own => b.dimension? name = some d ∧ P own := by
  unfold Selections.find
  cases found : b.dimension? name with
  | some d => exact Request.accounts_pure ⟨rfl, h⟩
  | none => exact steady.fail h rfl

theorem declared (d : DatasetRef) :
    (Validation.declared d).Accounts terms me own fun _ => P := by
  refine (steady.ask h _).bind ?_
  intro reply own₁ h₁
  exact (steady.answered h₁ reply).bind fun _ _ h => Request.accounts_pure h

theorem options (limits : BatchLimits) (d : DatasetRef) (name : String) (ids : List String) :
    (Validation.options limits d name ids).Accounts terms me own fun _ => P := by
  refine Request.accounts_ite (fun _ => Request.accounts_pure h) fun _ => ?_
  refine (steady.ask h _).bind ?_
  intro reply own₁ h₁
  refine (steady.answered h₁ reply).bind ?_
  intro confirmed own₂ h₂
  exact (steady.check h₂ fun _ => Validation.carriedOut_verdict).weaken fun _ _ h => h.2

theorem dimension (limits : BatchLimits) (d : DatasetRef) (name : String) (ids : List String) :
    (Validation.dimension limits d name ids).Accounts terms me own fun _ => P := by
  refine (steady.declared h d).bind ?_
  intro names own₁ h₁
  exact Request.accounts_ite (fun _ => steady.fail h₁ rfl) fun _ => steady.options h₁ limits d name ids

theorem allOptions (limits : BatchLimits) (d : DatasetRef) (xs : List Dimension) :
    (Validation.allOptions limits d xs).Accounts terms me own fun _ => P := by
  induction xs generalizing own with
  | nil => exact Request.accounts_pure h
  | cons x xs ih => exact (steady.options h limits d x.name x.options).bind fun _ _ h => ih h

/-- The whole check of dimensions against the catalog leaves the account as it stood. -/
theorem dimensions (limits : BatchLimits) (d : DatasetRef) (xs : List Dimension) :
    (Validation.dimensions limits d xs).Accounts terms me own fun _ => P := by
  refine Request.accounts_ite (fun _ => Request.accounts_pure h) fun _ => ?_
  refine (steady.declared h d).bind ?_
  intro names own₁ h₁
  exact Request.accounts_ite (fun _ => steady.allOptions h₁ limits d xs) fun _ => steady.fail h₁ rfl

theorem moveTo {settings : Settings} (b : Blueprint) (version : UInt32) (caller : Caller) :
    (Blueprints.moveTo settings b version caller).Accounts terms me own
      fun change own => (change.state = none ∧ change.outputId = none) ∧ P own := by
  refine Request.accounts_ite (fun _ => steady.fail h rfl) fun _ => ?_
  refine (steady.ask h _).bind ?_
  intro reply own₁ h₁
  refine (steady.answered h₁ reply).bind ?_
  intro found own₂ h₂
  refine (steady.dimensions h₂ _ _ _).bind ?_
  intro _ own₃ h₃
  exact Request.accounts_pure ⟨⟨rfl, rfl⟩, h₃⟩

end Terms.Steady

end DatasetFilters
