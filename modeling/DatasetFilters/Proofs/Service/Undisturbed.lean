import DatasetFilters.Proofs.Service.Alone
import DatasetFilters.Proofs.Store.Held

namespace DatasetFilters

/-- Nobody writes to the blueprints while a question is open. -/
def Quiet (answer : (q : Query) → World → σ → q.Reply × World × σ) : Prop :=
  ∀ q w t, (answer q w t).2.1.store.backend.filters = w.store.backend.filters

/-- A request that leaves the blueprints, run on its own. -/
def Request.Leaves (answer : (q : Query) → World → σ → q.Reply × World × σ)
    (r : Request ε α) : Prop :=
  ∀ w t, ((r w).run answer t).2.1.store.backend.filters = w.store.backend.filters

section

variable {answer : (q : Query) → World → σ → q.Reply × World × σ} {w : World} {t : σ}
  {b c : Blueprint}

namespace Request

theorem leaves_pure (a : α) : (pure a : Request ε α).Leaves answer := fun _ _ => rfl

theorem leaves_fail (e : ε) : (fail e : Request ε α).Leaves answer := fun _ _ => rfl

theorem leaves_ofExcept (r : Except ε α) : (ofExcept r).Leaves answer := fun _ _ => rfl

theorem leaves_ask (quiet : Quiet answer) (q : Query) :
    (ask q : Request ε q.Reply).Leaves answer := quiet q

theorem Leaves.bind {r : Request ε α} {f : α → Request ε β} (h : r.Leaves answer)
    (hf : ∀ a, (f a).Leaves answer) : (r >>= f).Leaves answer := by
  intro w t
  have first := h w t
  rcases hr : (r w).run answer t with ⟨e | a, w₁, t₁⟩
  · rw [run_bind_of_error hr]
    rw [hr] at first
    exact first
  · rw [run_bind hr]
    rw [hr] at first
    exact (hf a w₁ t₁).trans first

theorem Leaves.ite {r r' : Request ε α} (p : Prop) [Decidable p] (h : r.Leaves answer)
    (h' : r'.Leaves answer) : (if p then r else r').Leaves answer := by
  split
  · exact h
  · exact h'

variable (answer t) in
/-- A change of what is stored, on its tag. -/
theorem run_edit {e : FilterEdit} (holds : w.store.Holds b) (applied : e.apply b = .ok c)
    (told : c.tag = b.tag → c = b) : ∃ r w',
      ((write fun s now => Store.tagOnly (s.modifyFilter now b.id (.exact b.tag) e.apply)) w).run
        answer t = (r, w', t) ∧
      ((∃ e, r = .error e ∧ w'.store.backend.filters = w.store.backend.filters) ∨
        r = .ok c.tag ∧ w'.store.Holds c ∧ w.store.SameBeside w'.store b.id) := by
  rcases holds.modifyFilter applied told (w.clock w.readings) with
    ⟨error, -, refused⟩ | ⟨stamp, time, s', written, holds', beside⟩
  · have told : Store.tagOnly (w.store.modifyFilter (w.clock w.readings) b.id (.exact b.tag)
        e.apply) = (.error error, w.store.touched) := by rw [refused]; rfl
    exact ⟨_, _, run_write_of_error told, Or.inl ⟨_, rfl, rfl⟩⟩
  · have told : Store.tagOnly (w.store.modifyFilter (w.clock w.readings) b.id (.exact b.tag)
        e.apply) = (.ok c.tag, s') := by rw [written]; rfl
    exact ⟨_, _, run_write told, Or.inr ⟨rfl, holds', beside⟩⟩

end Request

namespace Validation

theorem leaves_declared (quiet : Quiet answer) (d : DatasetRef) : (declared d).Leaves answer :=
  (Request.leaves_ask quiet _).bind fun _ => (Request.leaves_ofExcept _).bind fun _ =>
    Request.leaves_pure _

theorem leaves_options (quiet : Quiet answer) (limits : BatchLimits) (d : DatasetRef)
    (name : String) (ids : List String) : (options limits d name ids).Leaves answer := by
  refine .ite _ (Request.leaves_pure _) ?_
  exact (Request.leaves_ask quiet _).bind fun _ => (Request.leaves_ofExcept _).bind fun _ =>
    Request.leaves_ofExcept _

/-- Checking against the catalog leaves the blueprints. -/
theorem leaves_dimension (quiet : Quiet answer) (limits : BatchLimits) (d : DatasetRef)
    (name : String) (ids : List String) : (dimension limits d name ids).Leaves answer := by
  refine (leaves_declared quiet d).bind fun names => ?_
  exact .ite _ (Request.leaves_fail _) (leaves_options quiet limits d name ids)

end Validation

/-- A blueprint as a reader gets it. -/
def Blueprint.shownTo (b : Blueprint) (caller : Caller) : Blueprint :=
  if b.isPublished || caller.authenticated then b else b.promoted

theorem Blueprint.shownTo_cases (b : Blueprint) (caller : Caller) :
    b.shownTo caller = b ∨ b.shownTo caller = b.promoted := by
  unfold shownTo
  split
  · exact Or.inl rfl
  · exact Or.inr rfl

/-- The catalog or the store refuses to have a blueprint made public. -/
def Blueprints.Unpromoted (answer : (q : Query) → World → σ → q.Reply × World × σ) (w : World) (t : σ)
    (b : Blueprint) : Prop :=
  ∃ (reply : CatalogReply Version) (w₁ : World) (t₁ : σ),
    answer (.version b.dataset false) w t = (reply, w₁, t₁) ∧
      ((∃ e, reply = .error e) ∨ (w₁.store.backend.failure? .modify .filters).isSome = true)

/-- Why a reader does not get a blueprint that is stored: the store cannot be read, the tag is another
one, or the blueprint is not public and is not made so. -/
inductive Blueprints.Refused (answer : (q : Query) → World → σ → q.Reply × World × σ) (w : World)
    (t : σ) (b : Blueprint) (selector : Selector) (caller : Caller) : Prop
  | unread (failed : (w.store.backend.failure? .get .filters).isSome = true)
  | conflict (other : selector.accepts b.etag = false)
  | hidden (unpublished : b.isPublished = false) (unknown : caller.authenticated = false)
      (refused : Unpromoted answer { w with store := w.store.touched } t b)

theorem ServiceError.ofStore_ne_patchFailed (e : StoreError) (done : List PatchOperation)
    (tag : String) (cause : ServiceError) : ofStore e ≠ patchFailed done tag cause := by
  cases e <;> simp [ofStore]

theorem ServiceError.ofCatalog_ne_patchFailed (e : CatalogError) (done : List PatchOperation)
    (tag : String) (cause : ServiceError) : ofCatalog e ≠ patchFailed done tag cause := by
  cases e <;> simp [ofCatalog]

namespace Blueprints

/-- How a request ends that is to get a blueprint `c` in the place of `b`: it fails for a reason and
leaves the blueprints, or gives what is stored then. -/
def Gets (w : World) (b c : Blueprint) (refused : Prop)
    (x : Except ServiceError Blueprint × World × σ) : Prop :=
  (∃ e, x.1 = .error e ∧ (∀ done tag cause, e ≠ .patchFailed done tag cause) ∧
    x.2.1.store.backend.filters = w.store.backend.filters ∧ refused) ∨
  (∃ stamp time, x.1 = .ok (c.marked c.tag stamp time)) ∧
    x.2.1.store.Holds c ∧ w.store.SameBeside x.2.1.store b.id

/-- Publishing gives what is stored then, or is refused and leaves what is stored. -/
theorem run_promote (quiet : Quiet answer) (holds : w.store.Holds b) (own : b.etag = b.tag)
    (told : b.promoted.tag = b.tag → b.promoted = b) :
    Gets w b b.promoted (Unpromoted answer w t b) (((promote b) w).run answer t) := by
  rcases asked : answer (.version b.dataset false) w t with ⟨reply, w₁, t₁⟩
  have left : w₁.store.backend.filters = w.store.backend.filters := by
    rw [← quiet (.version b.dataset false) w t, asked]
  have asks : ((Request.ask (.version b.dataset false) : Request ServiceError _) w).run answer t =
      (.ok reply, w₁, t₁) := by rw [Request.run_ask, asked]
  have ran : ((promote b) w).run answer t = _ := Request.run_bind asks _
  rw [ran]
  cases reply with
  | error e =>
    have unpromoted : Unpromoted answer w t b := ⟨_, w₁, t₁, asked, Or.inl ⟨e, rfl⟩⟩
    by_cases unknown : e.isNotFound = true
    · simp only [if_pos unknown]
      exact Or.inl ⟨_, rfl, by simp, left, unpromoted⟩
    · simp only [if_neg unknown]
      exact Or.inl ⟨_, rfl, ServiceError.ofCatalog_ne_patchFailed e, left, unpromoted⟩
  | ok version =>
    have applied : (FilterEdit.change .promotion).apply b = .ok b.promoted := by
      rw [← BlueprintChange.apply_promotion]
      rfl
    simp only
    rw [Request.run_bind Request.run_now, own]
    let f : Store → Except StoreError Blueprint × Store := fun s =>
      s.updateFilter (w₁.clock w₁.readings) b.id { published := some true } (.exact b.tag)
    have access : ((Request.access f : Request ServiceError _)
        { w₁ with readings := w₁.readings + 1 }).run answer t₁ = _ := Request.run_access answer t₁ f
    rcases (holds.of_filters_eq left).modifyFilter applied told (w₁.clock w₁.readings) with
      ⟨error, failed, refused⟩ | ⟨stamp, time, s', written, holds', beside⟩
    · -- nobody else wrote, so it is the backend that fails and not a conflict
      have loses : f w₁.store = (.error error, w₁.store.touched) := refused
      rw [loses] at access
      rw [Request.run_bind access]
      have unpromoted : Unpromoted answer w t b := ⟨_, w₁, t₁, asked, Or.inr (by rw [failed]; rfl)⟩
      obtain ⟨detail, -, rfl⟩ := Option.map_eq_some_iff.mp failed
      exact Or.inl ⟨_, rfl, by simp, left, unpromoted⟩
    · have wins : f w₁.store = (.ok (b.promoted.marked b.promoted.tag stamp time), s') := written
      rw [wins] at access
      rw [Request.run_bind access]
      exact Or.inr ⟨⟨stamp, time, rfl⟩, holds',
        (Store.SameBeside.of_filters_eq left _).trans beside⟩

/-- How a reading ends that nobody writes in between of. -/
theorem run_get (quiet : Quiet answer) (sound : w.store.Sound) (stored : w.Stores b)
    (told : b.promoted.tag = b.tag → b.promoted = b) (selector : Selector) (caller : Caller) :
    Gets w b (b.shownTo caller) (Refused answer w t b selector caller)
      (((get b.id selector caller) w).run answer t) := by
  have got := Store.getFilter_eq sound b.id selector
  rw [stored] at got
  rcases failed : w.store.backend.failure? .get .filters with _ | error
  · rw [failed] at got
    by_cases accepted : selector.accepts b.etag = true
    · simp only [accepted, if_true] at got
      have reads := Request.run_read (f := (·.getFilter b.id selector)) answer t got
      have own : b.etag = b.tag := sound.etag_eq stored
      have shown : b.marked b.tag b.stamp b.lastUpdated = b := by rw [← own]; rfl
      rw [get, Request.run_bind reads]
      by_cases visible : (b.isPublished || caller.authenticated) = true
      · rw [if_pos visible, Blueprint.shownTo, if_pos visible]
        refine Or.inr ⟨⟨b.stamp, b.lastUpdated, ?_⟩, ?_, .of_filters_eq rfl _⟩
        · rw [shown]
          rfl
        · exact (sound.holds stored).of_filters_eq rfl
      · rw [if_neg visible, Blueprint.shownTo, if_neg visible]
        have promotes := run_promote quiet (t := t) (w := { w with store := w.store.touched })
          ((sound.holds stored).of_filters_eq rfl) own told
        rcases promotes with ⟨e, failed, other, left, unpromoted⟩ | ⟨got, holds, beside⟩
        · have hidden := Bool.eq_false_iff.mpr visible
          rw [Bool.or_eq_false_iff] at hidden
          exact Or.inl ⟨e, failed, other, left, .hidden hidden.1 hidden.2 unpromoted⟩
        · exact Or.inr ⟨got, holds, (Store.SameBeside.of_filters_eq rfl _).trans beside⟩
    · simp only [if_neg accepted] at got
      have reads := Request.run_read_of_error (f := (·.getFilter b.id selector)) answer t got
      rw [get, Request.run_bind_of_error reads]
      refine Or.inl ⟨_, rfl, ServiceError.ofStore_ne_patchFailed _, rfl, ?_⟩
      exact .conflict (Bool.eq_false_iff.mpr accepted)
  · rw [failed] at got
    have reads := Request.run_read_of_error (f := (·.getFilter b.id selector)) answer t got
    rw [get, Request.run_bind_of_error reads]
    refine Or.inl ⟨_, rfl, ServiceError.ofStore_ne_patchFailed _, rfl, ?_⟩
    exact .unread (by rw [failed]; rfl)

end Blueprints

end

end DatasetFilters
