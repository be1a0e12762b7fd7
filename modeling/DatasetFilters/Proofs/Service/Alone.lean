import DatasetFilters.Proofs.Service.Follow

namespace DatasetFilters

variable {answer : (q : Query) → World → σ → q.Reply × World × σ} {t : σ}

namespace Step

variable (answer t) in
theorem run_andThen (step : Step ε α) (f : α → Request ε β) :
    (step.andThen f).run answer t = match step.run answer t with
      | (.ok a, w, t') => (f a w).run answer t'
      | (.error e, w, t') => (.error e, w, t') := by
  induction step generalizing t with
  | done r w => cases r <;> rfl
  | acted w resume ih => exact ih w t
  | ask w q resume ih => exact ih _ _ _

variable (answer t) in
theorem run_mapResult (step : Step ε α) (f : Except ε α → Except δ β) :
    (step.mapResult f).run answer t =
      (f (step.run answer t).1, (step.run answer t).2) := by
  induction step generalizing t with
  | done r w => rfl
  | acted w resume ih => exact ih w t
  | ask w q resume ih => exact ih _ _ _

end Step

namespace Request

variable {w w' : World} {t' : σ}

theorem run_bind {r : Request ε α} {a : α} (h : (r w).run answer t = (.ok a, w', t'))
    (f : α → Request ε β) : ((r >>= f) w).run answer t = (f a w').run answer t' := by
  have bound := Step.run_andThen answer t (r w) f
  rw [h] at bound
  exact bound

theorem run_bind_of_error {r : Request ε α} {e : ε} (h : (r w).run answer t = (.error e, w', t'))
    (f : α → Request ε β) : ((r >>= f) w).run answer t = (.error e, w', t') := by
  have bound := Step.run_andThen answer t (r w) f
  rw [h] at bound
  exact bound

theorem of_run_bind {r : Request ε α} {f : α → Request ε β} {b : β}
    (h : ((r >>= f) w).run answer t = (.ok b, w', t')) :
    ∃ a w₁ t₁, (r w).run answer t = (.ok a, w₁, t₁) ∧ (f a w₁).run answer t₁ = (.ok b, w', t') := by
  have bound := (Step.run_andThen answer t (r w) f).symm.trans h
  rcases hr : (r w).run answer t with ⟨a | a, w₁, t₁⟩
  · simp [hr] at bound
  · rw [hr] at bound
    exact ⟨a, w₁, t₁, rfl, bound⟩

theorem run_pure (a : α) : ((pure a : Request ε α) w).run answer t = (.ok a, w, t) := rfl

theorem run_ofExcept (r : Except ε α) : ((ofExcept r) w).run answer t = (r, w, t) := rfl

theorem run_answered (a : α) : ((answered (Except.ok a : CatalogReply α)) w).run answer t =
    (.ok a, w, t) := rfl

theorem run_attempt {r : Request ε α} {a : Except ε α} (h : (r w).run answer t = (a, w', t')) :
    ((attempt r : Request δ _) w).run answer t = (.ok a, w', t') := by
  rw [attempt, Step.run_mapResult, h]

theorem run_now : ((now : Request ε Instant) w).run answer t =
    (.ok (w.clock w.readings), { w with readings := w.readings + 1 }, t) := rfl

theorem run_drawId : ((drawId : Request ε String) w).run answer t =
    (.ok (w.ids w.idsDrawn), { w with idsDrawn := w.idsDrawn + 1 }, t) := rfl

theorem run_count (c : Counter) : ((count c : Request ε Unit) w).run answer t =
    (.ok (), { w with counters := w.counters.increment c }, t) := rfl

theorem run_enqueue (id : String) : ((enqueue id : Request ε _) w).run answer t =
    (.ok (w.channel.enqueue id).1, { w with channel := (w.channel.enqueue id).2 }, t) := rfl

/-- What is answered, and what happens to the world meanwhile, is up to `answer`. -/
theorem run_ask (q : Query) : ((ask q : Request ε q.Reply) w).run answer t =
    (.ok (answer q w t).1, (answer q w t).2.1, (answer q w t).2.2) := rfl

variable (answer t) in
theorem run_access (f : Store → Except δ α × Store) : ((access f : Request ε _) w).run answer t =
    (.ok (f w.store).1, { w with store := (f w.store).2 }, t) := rfl

variable (answer t) in
theorem run_read_of_error {f : Store → Except StoreError α × Store} {error : StoreError}
    {store : Store} (h : f w.store = (.error error, store)) :
    ((read f) w).run answer t = (.error (.ofStore error), { w with store }, t) := by
  have accessed : ((access f : Request ServiceError _) w).run answer t =
      (.ok (.error error), { w with store }, t) := by rw [run_access, h]
  exact run_bind accessed _

variable (answer t) in
theorem run_read {f : Store → Except StoreError α × Store} {a : α} {store : Store}
    (h : f w.store = (.ok a, store)) :
    ((read f) w).run answer t = (.ok a, { w with store }, t) := by
  have accessed : ((access f : Request ServiceError _) w).run answer t =
      (.ok (.ok a), { w with store }, t) := by rw [run_access, h]
  exact run_bind accessed _

theorem run_write {f : Store → Instant → Except StoreError α × Store} {a : α} {store : Store}
    (h : f w.store (w.clock w.readings) = (.ok a, store)) :
    ((write f) w).run answer t = (.ok a, { w with store, readings := w.readings + 1 }, t) :=
  (run_bind run_now _).trans (run_read answer t (w := { w with readings := w.readings + 1 }) h)

theorem run_write_of_error {f : Store → Instant → Except StoreError α × Store} {error : StoreError}
    {store : Store} (h : f w.store (w.clock w.readings) = (.error error, store)) :
    ((write f) w).run answer t =
      (.error (.ofStore error), { w with store, readings := w.readings + 1 }, t) :=
  (run_bind run_now _).trans
    (run_read_of_error answer t (w := { w with readings := w.readings + 1 }) h)

/-- A write, and how the request goes on after it. -/
theorem of_run_write {f : Store → Instant → Except StoreError α × Store}
    {g : α → Request ServiceError β} {x : Except ServiceError β × World × σ}
    (ran : ((write f >>= g) w).run answer t = x) :
    (∃ error, f w.store (w.clock w.readings) = (.error error, x.2.1.store)) ∨
      ∃ a w₁, f w.store (w.clock w.readings) = (.ok a, w₁.store) ∧ (g a w₁).run answer t = x := by
  subst ran
  rcases written : f w.store (w.clock w.readings) with ⟨error | a, store⟩
  · rw [run_bind_of_error (run_write_of_error written)]
    exact Or.inl ⟨error, rfl⟩
  · rw [run_bind (run_write written)]
    exact Or.inr ⟨a, _, rfl, rfl⟩

end Request

namespace Store

/-- No access to the store fails. -/
def Works (s : Store) : Prop := ∀ n a c, s.backend.outage n a c = none

theorem Works.failure? {s : Store} (h : s.Works) (a : Access) (c : Collection) :
    s.backend.failure? a c = none := by
  rw [Backend.failure?, h]
  rfl

theorem Works.touched {s : Store} (h : s.Works) : s.touched.Works := h

theorem Works.keeping {s : Store} (h : s.Works) (now : Instant) (b : Blueprint) :
    (s.keeping now b).Works := h

/-- A store that works gives the blueprint that it has. -/
theorem Works.getFilter {s : Store} (h : s.Works) (sound : s.Sound) {b : Blueprint}
    (hb : s.filter? b.id = some b) {selector : Selector} (ha : selector.accepts b.etag = true) :
    s.getFilter b.id selector = (.ok b, s.touched) := by
  rw [getFilter_eq sound, h.failure?, hb]
  simp only [if_pos ha]

theorem Works.modifyFilter_of_ne {s : Store} (h : s.Works) (sound : s.Sound) {b : Blueprint}
    (hb : s.filter? b.id = some b) {tag : String} (hne : b.etag ≠ tag) (e : FilterEdit)
    (now : Instant) :
    s.modifyFilter now b.id (.exact tag) e.apply = (.error (.conflict b.id), s.touched) := by
  have refused : (tag == b.etag) = false := beq_false_of_ne hne.symm
  rw [modifyFilter_eq sound now b.id _ fun b c hc => (FilterEdit.apply_id_etag hc).1, h.failure?, hb]
  simp only [Selector.accepts, refused, Bool.false_eq_true, if_false]

/-- A store that works makes the change, and writes it unless the tag stays as it was. -/
theorem Works.modifyFilter {s : Store} (h : s.Works) (sound : s.Sound) {b c : Blueprint}
    (hb : s.filter? b.id = some b) {e : FilterEdit} (hc : e.apply b = .ok c) (now : Instant) :
    s.modifyFilter now b.id (.exact b.etag) e.apply =
      if c.tag = b.etag then (.ok c, s.touched)
      else (.ok (s.restamped now c), s.keeping now (s.restamped now c)) := by
  rw [modifyFilter_eq sound now b.id _ fun b c hc => (FilterEdit.apply_id_etag hc).1, h.failure?, hb]
  simp only [Selector.accepts, beq_self_eq_true, if_true, hc]

theorem Works.addOutput {s : Store} (h : s.Works) (now : Instant) {o : Output}
    (free : s.backend.find? .outputs o.id = none) : ∃ s', s.addOutput now o =
      (.ok { o with stamp := s.clock.next now }, s') ∧ s'.Works ∧
        s'.backend.filters = s.backend.filters ∧ (s'.backend.find? .outputs o.id).isSome := by
  refine ⟨(s.addOutput now o).2, ?_, ?_, s.filters_addOutput now o, ?_⟩
  all_goals
    simp only [Store.addOutput, Backend.insert, h.failure?, free, Option.isSome_none,
      Bool.false_eq_true, if_false]
  · rfl
  · exact h
  · rw [Backend.find?_put]
    simp

end Store

variable (answer t) in
/-- Writing a change to a blueprint as a whole, on the tag that is stored. -/
theorem Request.run_updateFilter {w : World} {b : Blueprint} (sound : w.store.Sound)
    (works : w.store.Works) (stored : w.Stores b) (change : BlueprintChange) :
    ∃ c z w', ((write fun s now => s.updateFilter now b.id change (.exact b.etag)) w).run answer t =
        (.ok c, w', t) ∧
      c.id = b.id ∧ c.dimensions = b.dimensions ∧ c.state = (change.apply b).state ∧
      w'.store.Sound ∧ w'.store.Works ∧ w'.Stores z ∧ z.id = c.id ∧ z.etag = c.etag ∧
      z.dimensions = c.dimensions ∧ w'.store.backend.outputs = w.store.backend.outputs ∧
      w'.ids = w.ids ∧ w'.idsDrawn = w.idsDrawn := by
  have written := works.modifyFilter sound stored (e := .change change) rfl (w.clock w.readings)
  by_cases htag : (change.apply b).tag = b.etag
  · rw [if_pos htag] at written
    have kept : w.store.touched.filter? b.id = some b := by
      rw [Store.filter?_touched]
      exact stored
    exact ⟨_, b, _, run_write written, rfl, rfl, rfl, sound.touched, works.touched, kept, rfl, rfl,
      rfl, rfl, rfl, rfl⟩
  · rw [if_neg htag] at written
    exact ⟨_, _, _, run_write written, rfl, rfl, rfl, sound.keeping _ rfl, works.keeping _ _,
      Store.filter?_keeping_self _ _ _, rfl, rfl, rfl, rfl, rfl, rfl⟩

end DatasetFilters
