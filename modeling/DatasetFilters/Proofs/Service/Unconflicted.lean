import DatasetFilters.Proofs.Service.Composition
import DatasetFilters.Proofs.Service.Patching
import DatasetFilters.Proofs.Service.Strokes

namespace DatasetFilters

namespace ServiceError

/-- A conflict, or a patch that was stopped by one. -/
def isConflict : ServiceError → Bool
  | conflict _ => true
  | patchFailed _ _ cause => cause.isConflict
  | _ => false

theorem root_ne_conflict {e : ServiceError} (h : e.isConflict = false) (key : String) :
    e.root ≠ .conflict key := by
  induction e with
  | conflict id => simp [isConflict] at h
  | patchFailed done tag cause ih => exact ih h
  | _ => simp [root]

theorem isConflict_ofStore {error : StoreError} (h : ∀ key, error ≠ .conflict key) :
    (ofStore error).isConflict = false := by
  cases error with
  | conflict id => exact absurd rfl (h id)
  | _ => rfl

theorem isConflict_ofCatalog (error : CatalogError) : (ofCatalog error).isConflict = false := by
  cases error <;> rfl

theorem isConflict_of_mapError {r : Except δ α} {f : δ → ServiceError}
    (plain : ∀ e, (f e).isConflict = false) {e : ServiceError} (h : r.mapError f = .error e) :
    e.isConflict = false := by
  cases r with
  | ok a => simp [Except.mapError] at h
  | error d =>
    obtain rfl := Except.error.inj h
    exact plain d

end ServiceError

/-- What is stored under an id, in a sound store, has this tag. -/
structure World.Tagged (w : World) (id tag : String) : Prop where
  sound : w.store.Sound
  stored : ∃ z, w.store.filter? id = some z ∧ z.etag = tag

/-- How a request ended: as `Q` has it, or with another failure than a conflict. -/
def EndsSmoothly (Q : α → World → Prop) : Except ServiceError α → World → Prop
  | .ok a, w => Q a w
  | .error e, _ => e.isConflict = false

section

variable {answer : (q : Query) → World → σ → q.Reply × World × σ} {P : World → Prop}
  {Q : α → World → Prop}

namespace Request

variable (answer) in
/-- A request that, sent on its own to a world as `P` has it, ends as `Q` has it or fails for another
reason than a conflict. -/
def Smooth (P : World → Prop) (r : Request ServiceError α) (Q : α → World → Prop) : Prop :=
  ∀ w t, P w → EndsSmoothly Q ((r w).run answer t).1 ((r w).run answer t).2.1

theorem smooth_pure {a : α} (h : ∀ w, P w → Q a w) : Smooth answer P (pure a) Q := fun w _ => h w

theorem smooth_fail {e : ServiceError} (h : e.isConflict = false) : Smooth answer P (fail e) Q :=
  fun _ _ _ => h

theorem smooth_check {r : Except ServiceError α} (h : ∀ e, r = .error e → e.isConflict = false) :
    Smooth answer P (ofExcept r) fun _ => P := by
  intro w t hw
  cases r with
  | ok a => exact hw
  | error e => exact h e rfl

theorem smooth_ite {c : Prop} [Decidable c] {r r' : Request ServiceError α}
    (h : c → Smooth answer P r Q) (h' : ¬c → Smooth answer P r' Q) :
    Smooth answer P (if c then r else r') Q := by
  by_cases hc : c
  · rw [if_pos hc]
    exact h hc
  · rw [if_neg hc]
    exact h' hc

/-- Requests without conflicts may follow each other, the second from the tag that the first
leaves. -/
theorem Smooth.bind {r : Request ServiceError α} {f : α → Request ServiceError β}
    {R : β → World → Prop} (h : Smooth answer P r Q) (hf : ∀ a, Smooth answer (Q a) (f a) R) :
    Smooth answer P (r >>= f) R := by
  intro w t hw
  have ended := h w t hw
  rcases ran : (r w).run answer t with ⟨e | a, w₁, t₁⟩
  · rw [ran] at ended
    rw [run_bind_of_error ran]
    exact ended
  · rw [ran] at ended
    rw [run_bind ran]
    exact hf a w₁ t₁ ended

theorem Smooth.weaken {r : Request ServiceError α} {Q' : α → World → Prop}
    (h : Smooth answer P r Q) (hQ : ∀ a w, Q a w → Q' a w) : Smooth answer P r Q' := by
  intro w t hw
  have ended := h w t hw
  generalize (r w).run answer t = x at ended ⊢
  obtain ⟨e | a, w', t'⟩ := x
  · exact ended
  · exact hQ a w' ended

theorem Smooth.reply {r : Request ServiceError α} (h : Smooth answer P r Q) (f : α → β) :
    Smooth answer P (r >>= fun a => pure (f a)) fun _ _ => True :=
  h.bind fun _ => smooth_pure fun _ _ => trivial

/-- What the result of the request before says, besides what the world is like. -/
theorem Smooth.given {r : Request ServiceError α} {p : Prop} (h : p → Smooth answer P r Q) :
    Smooth answer (fun w => p ∧ P w) r Q :=
  fun w t hw => h hw.1 w t hw.2

theorem smooth_act {f : World → α × World} (h : ∀ w, P w → Q (f w).1 (f w).2) :
    Smooth answer P (act f) Q := fun w _ hw => h w hw

theorem Smooth.attempt {r : Request ServiceError α} (h : Smooth answer P r Q) :
    Smooth answer P (r.attempt : Request ServiceError (Except ServiceError α)) (EndsSmoothly Q) := by
  intro w t hw
  rcases ran : (r w).run answer t with ⟨a, w₁, t₁⟩
  have ended := h w t hw
  rw [ran] at ended
  rw [run_attempt ran]
  exact ended

end Request

section

variable {id tag : String}

theorem World.Tagged.of_filters_eq {w w' : World} (h : w.Tagged id tag)
    (same : w'.store.backend.filters = w.store.backend.filters) : w'.Tagged id tag where
  sound := h.sound.of_filters_eq same
  stored := by
    obtain ⟨z, hz, htag⟩ := h.stored
    exact ⟨z, (Store.filter?_of_filters_eq same id).trans hz, htag⟩

namespace Request

/-- An action that leaves the blueprints leaves the tag. -/
theorem smooth_idle {f : World → α × World}
    (h : ∀ w, (f w).2.store.backend.filters = w.store.backend.filters) :
    Smooth answer (·.Tagged id tag) (act f) fun _ w => w.Tagged id tag :=
  smooth_act fun w hw => hw.of_filters_eq (h w)

theorem smooth_ask (quiet : Quiet answer) (q : Query) :
    Smooth answer (·.Tagged id tag) (ask q) fun _ w => w.Tagged id tag :=
  fun w t hw => hw.of_filters_eq (quiet q w t)

theorem smooth_answered (r : CatalogReply α) :
    Smooth answer (·.Tagged id tag) (answered r) fun _ w => w.Tagged id tag :=
  smooth_check fun _ => ServiceError.isConflict_of_mapError ServiceError.isConflict_ofCatalog

end Request

namespace Validation

variable (quiet : Quiet answer) (limits : BatchLimits) (d : DatasetRef)
include quiet

theorem smooth_declared :
    Request.Smooth answer (·.Tagged id tag) (declared d) fun _ w => w.Tagged id tag :=
  (Request.smooth_ask quiet _).bind fun reply => (Request.smooth_answered reply).bind
    fun _ => Request.smooth_pure fun _ h => h

theorem smooth_options (name : String) (ids : List String) :
    Request.Smooth answer (·.Tagged id tag) (options limits d name ids) fun _ w => w.Tagged id tag := by
  refine Request.smooth_ite (fun _ => Request.smooth_pure fun _ h => h) fun _ => ?_
  refine (Request.smooth_ask quiet _).bind fun reply => (Request.smooth_answered reply).bind
    fun confirmed => Request.smooth_check fun e he => ?_
  unfold verdict at he
  simp only at he
  split at he
  · simp at he
  · obtain rfl := Except.error.inj he
    rfl

theorem smooth_dimension (name : String) (ids : List String) :
    Request.Smooth answer (·.Tagged id tag) (dimension limits d name ids)
      fun _ w => w.Tagged id tag :=
  (smooth_declared quiet d).bind fun _ => Request.smooth_ite
    (fun _ => Request.smooth_fail rfl)
    fun _ => smooth_options quiet limits d name ids

theorem smooth_allOptions (xs : List Dimension) :
    Request.Smooth answer (·.Tagged id tag) (allOptions limits d xs) fun _ w => w.Tagged id tag := by
  induction xs with
  | nil => exact Request.smooth_pure fun _ h => h
  | cons x xs ih => exact (smooth_options quiet limits d x.name x.options).bind fun _ => ih

theorem smooth_dimensions (xs : List Dimension) :
    Request.Smooth answer (·.Tagged id tag) (dimensions limits d xs) fun _ w => w.Tagged id tag := by
  refine Request.smooth_ite (fun _ => Request.smooth_pure fun _ h => h) fun _ => ?_
  refine (smooth_declared quiet d).bind fun _ => Request.smooth_ite
    (fun _ => smooth_allOptions quiet limits d xs) fun _ => Request.smooth_fail rfl

end Validation

/-- How an access ends: as `Q` has it, or with another failure than a conflict. -/
def Store.EndsSmoothly (Q : α → Store → Prop) : Except StoreError α × Store → Prop
  | (.ok a, s) => Q a s
  | (.error error, _) => ∀ key, error ≠ .conflict key

theorem Store.addOutput_ended (s : Store) (t : Instant) (o : Output) :
    Store.EndsSmoothly (fun _ s' => s'.backend.filters = s.backend.filters) (s.addOutput t o) := by
  have left := s.filters_addOutput t o
  unfold addOutput Backend.insert at left ⊢
  cases failed : s.backend.failure? .insert .outputs with
  | some error =>
    obtain ⟨detail, -, rfl⟩ := Option.map_eq_some_iff.mp failed
    exact fun _ => by simp
  | none =>
    rw [failed] at left
    by_cases taken : (s.backend.find? .outputs o.id).isSome = true
    · simp only [taken, if_true]
      exact fun _ => by simp
    · simp only [if_neg taken] at left ⊢
      exact left

namespace World.Tagged

variable {w : World} (h : w.Tagged id tag)
include h

theorem getFilter {selector : Selector} (accepted : selector.accepts tag = true) :
    Store.EndsSmoothly (fun b s => b.id = id ∧ World.Tagged { w with store := s } id b.etag)
      (w.store.getFilter id selector) := by
  obtain ⟨z, hz, rfl⟩ := h.stored
  rw [Store.getFilter_eq h.sound, hz]
  cases failed : w.store.backend.failure? .get .filters with
  | some error =>
    obtain ⟨detail, -, rfl⟩ := Option.map_eq_some_iff.mp failed
    exact fun _ => by simp
  | none =>
    simp only [if_pos accepted]
    exact ⟨h.sound.id_eq hz, h.of_filters_eq rfl⟩

theorem modifyFilter (e : FilterEdit) (t : Instant) :
    Store.EndsSmoothly (fun c s => c.id = id ∧ World.Tagged { w with store := s } id c.etag)
      (w.store.modifyFilter t id (.exact tag) e.apply) := by
  obtain ⟨z, hz, htag⟩ := h.stored
  rcases Store.modifyFilter_cases h.sound t id (.exact tag) e with
    ⟨error, he⟩ | ⟨y, c, hy, -, hc, ended⟩
  · rw [he]
    rintro key rfl
    -- a conflict would take another tag than the stored one
    obtain ⟨z', hz', refused⟩ := Store.modifyFilter_of_conflict h.sound (congrArg Prod.fst he)
    obtain rfl := Option.some.inj (hz.symm.trans hz')
    simp [Selector.accepts, htag] at refused
  · obtain ⟨same, keeps⟩ := FilterEdit.apply_id_etag hc
    have hid : c.id = id := same.trans (h.sound.id_eq hy)
    rcases ended with ⟨-, he⟩ | ⟨-, he⟩ <;> rw [he]
    · obtain rfl := Option.some.inj (hz.symm.trans hy)
      rw [Store.EndsSmoothly, keeps, htag]
      exact ⟨hid, h.of_filters_eq rfl⟩
    · refine ⟨hid, h.sound.keeping t rfl, w.store.restamped t c, ?_, rfl⟩
      rw [← hid]
      exact Store.filter?_keeping_self w.store t (w.store.restamped t c)

end World.Tagged

namespace Request

theorem smooth_read {f : Store → Except StoreError α × Store}
    (h : ∀ w, P w → Store.EndsSmoothly (fun a s => Q a { w with store := s }) (f w.store)) :
    Smooth answer P (read f) Q := by
  intro w t hw
  have ended := h w hw
  rcases accessed : f w.store with ⟨error | a, s⟩
  · rw [accessed] at ended
    rw [run_read_of_error answer t accessed]
    exact ServiceError.isConflict_ofStore ended
  · rw [accessed] at ended
    rw [run_read answer t accessed]
    exact ended

theorem smooth_write {f : Store → Instant → Except StoreError α × Store}
    (h : ∀ t (w : World), w.Tagged id tag →
      Store.EndsSmoothly (fun a s => Q a { w with store := s }) (f w.store t)) :
    Smooth answer (·.Tagged id tag) (write f) Q :=
  (smooth_idle fun _ => rfl).bind fun t => smooth_read fun w hw => h t w hw

theorem smooth_getFilter {selector : Selector} (accepted : selector.accepts tag = true) :
    Smooth answer (·.Tagged id tag) (read (·.getFilter id selector))
      fun b w => b.id = id ∧ w.Tagged id b.etag :=
  smooth_read fun _ hw => hw.getFilter accepted

theorem smooth_change (c : BlueprintChange) :
    Smooth answer (·.Tagged id tag) (write fun s t => s.updateFilter t id c (.exact tag))
      fun b w => b.id = id ∧ w.Tagged id b.etag :=
  smooth_write fun t _ hw => hw.modifyFilter (.change c) t

/-- The tag that an edit gives is stored then. -/
theorem smooth_edit (e : FilterEdit) : Smooth answer (·.Tagged id tag)
    (write fun s t => Store.tagOnly (s.modifyFilter t id (.exact tag) e.apply))
    fun tag w => w.Tagged id tag := by
  refine smooth_write fun t w hw => ?_
  have ended := hw.modifyFilter e t
  generalize w.store.modifyFilter t id (.exact tag) e.apply = x at ended ⊢
  obtain ⟨error | c, s⟩ := x
  · exact ended
  · exact ended.2

end Request

section

variable {b : Blueprint} {selector : Selector} {caller : Caller} {settings : Settings}

namespace Blueprints

theorem smooth_submit :
    Request.Smooth answer (·.Tagged b.id b.etag) (submit b) fun _ _ => True := by
  refine Request.smooth_ite (fun _ => Request.smooth_fail rfl) fun _ => ?_
  refine (Request.smooth_idle fun _ => rfl).bind fun time => ?_
  refine (Request.smooth_idle fun _ => rfl).bind fun outputId => ?_
  have makes : Request.Smooth answer (·.Tagged b.id b.etag)
      (Request.write fun s t => s.addOutput t (.ofBlueprint outputId b time))
      fun _ w => w.Tagged b.id b.etag := by
    refine Request.smooth_write fun t w hw => ?_
    have ended := w.store.addOutput_ended t (.ofBlueprint outputId b time)
    generalize w.store.addOutput t (.ofBlueprint outputId b time) = x at ended ⊢
    obtain ⟨error | o, s⟩ := x
    · exact ended
    · exact hw.of_filters_eq ended
  refine makes.bind fun _ => (Request.smooth_change _).bind fun submitted => Request.Smooth.given ?_
  intro _
  refine (Request.smooth_idle fun _ => rfl).bind fun _ => ?_
  refine (Request.smooth_idle fun _ => rfl).bind fun sent => ?_
  cases sent with
  | ok u => exact Request.smooth_pure fun _ _ => trivial
  | error e =>
    exact (Request.smooth_idle fun _ => rfl).bind fun _ => Request.smooth_pure fun _ _ => trivial

theorem smooth_submitIf (andSubmit : Bool) :
    Request.Smooth answer (·.Tagged b.id b.etag) (submitIf andSubmit b) fun _ _ => True := by
  cases andSubmit with
  | true => exact smooth_submit
  | false => exact Request.smooth_pure fun _ _ => trivial

theorem smooth_revise (change : BlueprintChange) :
    Request.Smooth answer (·.Tagged b.id b.etag) (revise b.id b change)
      fun c w => c.id = b.id ∧ w.Tagged b.id c.etag :=
  Request.smooth_ite (fun _ => Request.smooth_pure fun _ h => ⟨rfl, h⟩)
    fun _ => Request.smooth_change change

variable (quiet : Quiet answer)
include quiet

theorem smooth_moveTo (version : UInt32) :
    Request.Smooth answer (·.Tagged id tag) (moveTo settings b version caller)
      fun _ w => w.Tagged id tag := by
  refine Request.smooth_ite (fun _ => Request.smooth_fail rfl) fun _ => ?_
  refine (Request.smooth_ask quiet _).bind fun reply => ?_
  refine (Request.smooth_answered reply).bind fun found => ?_
  refine (Validation.smooth_dimensions quiet settings.limits _ _).bind fun _ => ?_
  exact Request.smooth_pure fun _ h => h

theorem smooth_revision (u : BlueprintUpdate) (accepted : selector.accepts tag = true) :
    Request.Smooth answer (·.Tagged id tag) (revision settings id u selector caller)
      fun p w => p.1.id = id ∧ w.Tagged id p.1.etag := by
  refine (Request.smooth_getFilter accepted).bind fun current => Request.Smooth.given fun hid => ?_
  refine Request.smooth_ite (fun _ => Request.smooth_fail rfl) fun _ => ?_
  have checks : Request.Smooth answer (·.Tagged id current.etag) (Request.ofExcept u.validEvents)
      fun _ w => w.Tagged id current.etag :=
    Request.smooth_check fun _ => ServiceError.isConflict_of_mapError fun _ => rfl
  refine checks.bind fun events => ?_
  cases u.newVersion? current with
  | some version =>
    exact (smooth_moveTo quiet version).bind fun _ => Request.smooth_pure fun _ h => ⟨hid, h⟩
  | none => exact Request.smooth_pure fun _ h => ⟨hid, h⟩

theorem smooth_update (u : BlueprintUpdate) (andSubmit : Bool)
    (accepted : selector.accepts tag = true) :
    Request.Smooth answer (·.Tagged id tag) (update settings id u andSubmit selector caller)
      fun _ _ => True := by
  rw [update_eq]
  refine (smooth_revision quiet u accepted).bind fun p => Request.Smooth.given ?_
  rintro rfl
  refine Request.smooth_ite (fun _ => Request.smooth_fail rfl) fun _ => ?_
  refine (smooth_revise p.2).bind fun c => Request.Smooth.given fun hid => ?_
  rw [← hid]
  exact smooth_submitIf andSubmit

/-- Nobody else writes, so the promotion of what is stored meets no conflict. -/
theorem smooth_promote : Request.Smooth answer (·.Tagged b.id b.etag) (promote b)
    fun c w => c.id = b.id ∧ w.Tagged b.id c.etag := by
  refine (Request.smooth_ask quiet _).bind fun version => ?_
  cases version with
  | error e =>
    exact Request.smooth_ite (fun _ => Request.smooth_fail rfl)
      fun _ => Request.smooth_fail (ServiceError.isConflict_ofCatalog e)
  | ok version =>
    refine (Request.smooth_idle fun _ => rfl).bind fun t => ?_
    have promotes : Request.Smooth answer (·.Tagged b.id b.etag)
        (Request.access fun s => s.updateFilter t b.id { published := some true } (.exact b.etag))
        fun r w => Store.EndsSmoothly
          (fun c s => c.id = b.id ∧ World.Tagged { w with store := s } b.id c.etag) (r, w.store) :=
      Request.smooth_act fun w hw => hw.modifyFilter (.change { published := some true }) t
    refine promotes.bind fun promoted => ?_
    cases promoted with
    | ok promoted => exact Request.smooth_pure fun _ h => h
    | error error =>
      cases error with
      | conflict key =>
        intro w t hw
        exact absurd rfl (hw key)
      | _ => exact Request.smooth_fail rfl

theorem smooth_get (accepted : selector.accepts tag = true) :
    Request.Smooth answer (·.Tagged id tag) (get id selector caller)
      fun b w => b.id = id ∧ w.Tagged id b.etag := by
  refine (Request.smooth_getFilter accepted).bind fun b => Request.Smooth.given ?_
  rintro rfl
  exact Request.smooth_ite (fun _ => Request.smooth_pure fun _ h => ⟨rfl, h⟩)
    fun _ => smooth_promote quiet

end Blueprints

namespace Selections

theorem smooth_editable : Request.Smooth answer (·.Tagged id tag) (ensureEditable b)
    fun _ w => w.Tagged id tag :=
  Request.smooth_ite (fun _ => Request.smooth_fail rfl) fun _ => Request.smooth_pure fun _ h => h

theorem smooth_find (name : String) : Request.Smooth answer (·.Tagged id tag) (find b name)
    fun _ w => w.Tagged id tag := by
  unfold find
  cases b.dimension? name with
  | some d => exact Request.smooth_pure fun _ h => h
  | none => exact Request.smooth_fail rfl

variable (quiet : Quiet answer)
include quiet

/-- One operation of a patch goes on from the tag that is stored to the one that is stored then. -/
theorem smooth_apply {d : Dimension} (o : PatchOperation) :
    Request.Smooth answer (·.Tagged b.id tag) (apply settings b d tag o)
      fun r w => w.Tagged b.id r.2 := by
  have edits (d' : Dimension) (e : FilterEdit) :
      Request.Smooth answer (·.Tagged b.id tag) (edit b.id d' tag e) fun r w => w.Tagged b.id r.2 :=
    (Request.smooth_edit e).bind fun _ => Request.smooth_pure fun _ h => h
  cases action : o.action with
  | remove =>
    rw [apply_remove action]
    exact Request.smooth_ite (fun _ => Request.smooth_pure fun _ h => h) fun _ => edits _ _
  | add =>
    rw [apply_add action]
    exact Request.smooth_ite (fun _ => Request.smooth_pure fun _ h => h) fun _ =>
      (Validation.smooth_dimension quiet settings.limits _ _ _).bind fun _ => edits _ _

/-- No link in the chain of tags that a patch goes along breaks. -/
theorem smooth_applyAll {d : Dimension} (done operations : List PatchOperation) :
    Request.Smooth answer (·.Tagged b.id tag) (applyAll settings b done d tag operations)
      fun _ _ => True := by
  -- each operation starts from the tag that the one before left
  induction operations generalizing done d tag with
  | nil => exact Request.smooth_pure fun _ _ => trivial
  | cons o rest ih =>
    refine (smooth_apply quiet o).attempt.bind fun r => ?_
    cases r with
    | error cause => exact fun _ _ hw => hw
    | ok r => exact (Request.smooth_idle fun _ => rfl).bind fun _ => ih _

variable {name o : String} (accepted : selector.accepts tag = true)
include accepted

/-- What follows the reading of a blueprint starts from the tag that is stored then, which may be that
of its promotion. -/
theorem smooth_got {f : Blueprint → Request ServiceError α}
    (h : ∀ b : Blueprint, b.id = id → Request.Smooth answer (·.Tagged id b.etag) (f b) Q) :
    Request.Smooth answer (·.Tagged id tag) (Blueprints.get id selector caller >>= f) Q :=
  (Blueprints.smooth_get quiet accepted).bind fun b => Request.Smooth.given (h b)

theorem smooth_list :
    Request.Smooth answer (·.Tagged id tag) (list id selector caller) fun _ _ => True :=
  smooth_got quiet accepted fun _ _ => Request.smooth_pure fun _ _ => trivial

theorem smooth_get :
    Request.Smooth answer (·.Tagged id tag) (get id name selector caller) fun _ _ => True :=
  smooth_got quiet accepted fun _ _ => (smooth_find name).reply _

theorem smooth_options :
    Request.Smooth answer (·.Tagged id tag) (options id name selector caller) fun _ _ => True :=
  (smooth_get quiet accepted).reply _

theorem smooth_option :
    Request.Smooth answer (·.Tagged id tag) (option id name o selector caller) fun _ _ => True :=
  (smooth_get quiet accepted).bind fun _ => Request.smooth_ite
    (fun _ => Request.smooth_pure fun _ _ => trivial) fun _ => Request.smooth_fail rfl

theorem smooth_add {d : Dimension} :
    Request.Smooth answer (·.Tagged id tag) (add settings id d selector caller) fun _ _ => True :=
  smooth_got quiet accepted fun b _ => smooth_editable.bind fun _ =>
    (Validation.smooth_dimension quiet settings.limits b.dataset _ _).bind fun _ =>
      (Request.smooth_edit (.addDimension _)).reply _

theorem smooth_remove :
    Request.Smooth answer (·.Tagged id tag) (remove id name selector caller) fun _ _ => True :=
  smooth_got quiet accepted fun _ _ => smooth_editable.bind fun _ => (smooth_find name).bind fun _ =>
    (Request.smooth_edit (.removeDimension name)).weaken fun _ _ _ => trivial

theorem smooth_addOption : Request.Smooth answer (·.Tagged id tag)
    (addOption settings id name o selector caller) fun _ _ => True :=
  smooth_got quiet accepted fun b _ => (smooth_find name).bind fun _ => smooth_editable.bind fun _ =>
    Request.smooth_ite (fun _ => Request.smooth_pure fun _ _ => trivial) fun _ =>
      (Validation.smooth_dimension quiet settings.limits b.dataset name [o]).bind fun _ =>
        (Request.smooth_edit (.addOptions name [o])).weaken fun _ _ _ => trivial

theorem smooth_removeOption : Request.Smooth answer (·.Tagged id tag)
    (removeOption id name o selector caller) fun _ _ => True :=
  smooth_got quiet accepted fun _ _ => (smooth_find name).bind fun _ =>
    Request.smooth_ite (fun _ => Request.smooth_fail rfl) fun _ => smooth_editable.bind fun _ =>
      (Request.smooth_edit (.removeOptions name [o])).weaken fun _ _ _ => trivial

theorem smooth_patch {operations : List PatchOperation} : Request.Smooth answer (·.Tagged id tag)
    (patch settings id name operations selector caller) fun _ _ => True := by
  have checks : Request.Smooth answer (·.Tagged id tag) (Request.ofExcept
      ((Patch.checkSize settings.maxPatchOptions operations).mapError ServiceError.patch))
      fun _ w => w.Tagged id tag :=
    Request.smooth_check fun _ => ServiceError.isConflict_of_mapError fun _ => rfl
  refine checks.bind fun _ => smooth_got quiet accepted ?_
  rintro b rfl
  exact (smooth_find name).bind fun d => smooth_editable.bind fun _ =>
    smooth_applyAll quiet [] operations

end Selections

namespace ServiceCall

/-- The same call under another selector. -/
def under (selector : Selector) : ServiceCall → ServiceCall
  | get id _ => get id selector
  | update id u andSubmit _ => update id u andSubmit selector
  | dimensions id _ => dimensions id selector
  | dimension id name _ => dimension id name selector
  | addDimension id d _ => addDimension id d selector
  | removeDimension id name _ => removeDimension id name selector
  | options id name _ => options id name selector
  | option id name o _ => option id name o selector
  | addOption id name o _ => addOption id name o selector
  | removeOption id name o _ => removeOption id name o selector
  | patch id name operations _ => patch id name operations selector
  | call => call

variable {call : ServiceCall}

theorem target?_under (target : call.target? = some (id, selector)) (selector' : Selector) :
    (call.under selector').target? = some (id, selector') := by
  cases call <;> simp_all [target?, under]

/-- The selector of a call is used once: when the stored blueprint is read, which is first of all but
for a check of the call by itself. -/
theorem exists_under (settings : Settings) (caller : Caller)
    (target : call.target? = some (id, selector)) :
    ∃ (check : Except ServiceError Unit) (goOn : Blueprint → Request ServiceError Answer),
      ∀ selector', (call.under selector').request settings caller =
        Request.ofExcept check >>= fun _ =>
          Request.read (·.getFilter id selector') >>= goOn := by
  cases call with
  | create | output | updateOutput | addEvent => cases target
  | patch id name operations =>
    cases target
    simp only [under, request, Selections.patch, Blueprints.get, bind_assoc]
    exact ⟨_, _, fun _ => rfl⟩
  | _ =>
    cases target
    refine ⟨.ok (), ?_⟩
    simp only [under, request, Blueprints.get, Blueprints.update, Selections.list, Selections.options,
      Selections.option, Selections.get, Selections.add, Selections.remove, Selections.addOption,
      Selections.removeOption, bind_assoc]
    exact ⟨_, fun _ => rfl⟩

/-- Whether a call names the tag that is stored or none, it takes the same steps from there. -/
theorem request_under (settings : Settings) (caller : Caller)
    (target : call.target? = some (id, selector)) {w : World} (sound : w.store.Sound)
    (stored : w.store.filter? id = some b) :
    (call.under (.exact b.etag)).request settings caller w =
      (call.under .any).request settings caller w := by
  obtain ⟨check, goOn, same⟩ := exists_under settings caller target
  have reads : w.store.getFilter id (.exact b.etag) = w.store.getFilter id .any := by
    rw [Store.getFilter_eq sound, Store.getFilter_eq sound, stored]
    simp [Selector.accepts]
  have looks : Request.read (·.getFilter id (.exact b.etag)) w =
      Request.read (·.getFilter id .any) w := by
    change (Request.access (·.getFilter id (.exact b.etag)) w).andThen _ =
      (Request.access (·.getFilter id .any) w).andThen _
    simp only [Request.access, Request.act, reads]
  rw [same, same]
  cases check with
  | error e => rfl
  | ok u => exact congrArg (Step.andThen goOn) looks

/-- Whatever fails while nobody else writes, it is not a conflict. -/
theorem smooth_request (settings : Settings) (caller : Caller) (quiet : Quiet answer)
    (target : call.target? = some (id, selector))
    (accepted : selector.accepts tag = true) :
    Request.Smooth answer (·.Tagged id tag) (call.request settings caller) fun _ _ => True := by
  cases call with
  | create | output | updateOutput | addEvent => cases target
  | get => cases target; exact (Blueprints.smooth_get quiet accepted).reply _
  | update => cases target; exact (Blueprints.smooth_update quiet _ _ accepted).reply _
  | dimensions => cases target; exact (Selections.smooth_list quiet accepted).reply _
  | dimension => cases target; exact (Selections.smooth_get quiet accepted).reply _
  | addDimension => cases target; exact (Selections.smooth_add quiet accepted).reply _
  | removeDimension => cases target; exact (Selections.smooth_remove quiet accepted).reply _
  | options => cases target; exact (Selections.smooth_options quiet accepted).reply _
  | option => cases target; exact (Selections.smooth_option quiet accepted).reply _
  | addOption => cases target; exact (Selections.smooth_addOption quiet accepted).reply _
  | removeOption => cases target; exact (Selections.smooth_removeOption quiet accepted).reply _
  | patch => cases target; exact (Selections.smooth_patch quiet accepted).reply _

end ServiceCall

variable (answer) in
/-- In every state that a run comes to, a call that names the tag which is stored has the same result as
the call that names none, and leaves the same world, whoever calls, whatever the catalog answers and
whichever accesses fail. While nobody else writes, the result is not a conflict, and if it is a patch
that was stopped, it was not stopped by one. -/
theorem Run.current_tag_as_good_as_none {answers : Nat → (q : Query) → q.Reply → Prop} {start : World}
    {past : List Moment} {s : Server} (sound : start.store.Sound)
    (run : Run settings answers start past s) (call : ServiceCall)
    (target : call.target? = some (id, selector)) (stored : s.world.store.filter? id = some b)
    (caller : Caller) (t : σ) :
    ((call.under (.exact b.etag)).request settings caller s.world).run answer t =
        ((call.under .any).request settings caller s.world).run answer t ∧
      (Quiet answer → ∀ e,
        (((call.under (.exact b.etag)).request settings caller s.world).run answer t).1 = .error e →
          ∀ key, e.root ≠ .conflict key) := by
  obtain ⟨here, -⟩ := run.struck sound
  refine ⟨congrArg (Step.run answer · t) (ServiceCall.request_under settings caller target here stored),
    fun quiet e failed key => ?_⟩
  have accepted : (Selector.exact b.etag).accepts b.etag = true := by simp [Selector.accepts]
  have ended := ServiceCall.smooth_request settings caller quiet
    (ServiceCall.target?_under target (.exact b.etag)) accepted s.world t ⟨here, b, stored, rfl⟩
  rw [failed] at ended
  exact ServiceError.root_ne_conflict ended key

end

end

end

namespace Small

/-- The patch that the full disk stops ends the same way under the current tag. -/
theorem patching_on_tag :
    ((ServiceCall.request settings known (.patch "f" "age" choices (.exact blank.etag)) failing).run
      alone ()).1 =
        .error (.patchFailed (choices.take 1) chosen.etag (.store (.backend "disk full"))) ∧
    ∀ key, (ServiceError.patchFailed (choices.take 1) chosen.etag
      (.store (.backend "disk full"))).root ≠ .conflict key := by
  have run : Run settings answers failing [] ⟨failing, []⟩ := .start
  have stored : failing.store.filter? "f" = some blank := failing_stores
  obtain ⟨same, unconflicted⟩ := run.current_tag_as_good_as_none alone failing_sound
    (.patch "f" "age" choices .any) rfl stored known ()
  have stopped : ((ServiceCall.request settings known (.patch "f" "age" choices .any) failing).run
      alone ()).1 = .error (.patchFailed (choices.take 1) chosen.etag (.store (.backend "disk full"))) := by
    have computed := patching_known
    rcases ran : patching known with ⟨r, w, t⟩
    rw [ran] at computed
    obtain rfl : r = _ := computed
    exact congrArg Prod.fst (Request.run_bind_of_error ran _)
  have stopped' := (congrArg Prod.fst same).trans stopped
  exact ⟨stopped', unconflicted alone_quiet _ stopped'⟩

end Small

end DatasetFilters
