import DatasetFilters.Proofs.Patch
import DatasetFilters.Proofs.Service.Course
import DatasetFilters.Proofs.Service.Undisturbed

namespace DatasetFilters

section

variable {answer : (q : Query) → World → σ → q.Reply × World × σ} {w : World} {t : σ}
  {settings : Settings} {b c : Blueprint} {d : Dimension}

namespace FilterEdit

/-- Adding options to an editable blueprint that has the dimension succeeds. -/
theorem apply_addOptions_eq {name : String} (editable : b.isSubmitted = false)
    (found : b.dimension? name = some d) (options : List String) :
    (addOptions name options).apply b = .ok (b.withOptions name (d.insert options).options) := by
  have edited := Blueprint.modifyDimension?_eq_withOptions found (·.insert options) fun _ => rfl
  simp only [apply, Store.ensureEditable, editable, edited]
  rfl

theorem apply_removeOptions_eq {name : String} (editable : b.isSubmitted = false)
    (found : b.dimension? name = some d) (options : List String) :
    (removeOptions name options).apply b = .ok (b.withOptions name (d.erase options).options) := by
  have edited := Blueprint.modifyDimension?_eq_withOptions found (·.erase options) fun _ => rfl
  simp only [apply, Store.ensureEditable, editable, edited]
  rfl

end FilterEdit

namespace Selections

/-- A change of what is stored, and what the patch goes on with if it is made. -/
def edit (id : String) (d : Dimension) (etag : String) (e : FilterEdit) :
    Request ServiceError (Dimension × String) :=
  (Request.write fun s now => Store.tagOnly (s.modifyFilter now id (.exact etag) e.apply)) >>=
    fun etag => pure (d, etag)

theorem apply_remove {o : PatchOperation} (removes : o.action = .remove) (etag : String) :
    apply settings b d etag o = if (operands o).isEmpty then pure (d, etag) else
      edit b.id (d.erase (operands o)) etag (.removeOptions d.name (operands o)) := by
  simp only [apply, removes]
  rfl

theorem apply_add {o : PatchOperation} (adds : o.action = .add) (etag : String) :
    apply settings b d etag o =
      let new := (operands o).filter fun v => !d.has v
      if new.isEmpty then pure (d, etag) else
        Validation.dimension settings.limits b.dataset d.name new >>= fun _ =>
          edit b.id (d.insert new) etag (.addOptions d.name new) := by
  simp only [apply, adds]
  rfl

/-- How an operation of a patch ends: it fails and leaves the blueprints, or leaves this one with the
options that it is to have, and gives the dimension and the tag that go with it. -/
def Ends (before : World) (c : Blueprint) (d : Dimension) (o : PatchOperation)
    (r : Except ServiceError (Dimension × String)) (after : World) : Prop :=
  (∃ e, r = .error e ∧ after.store.backend.filters = before.store.backend.filters) ∨
    r = .ok ({ d with options := o.revise d.options }, (c.patched d [o]).tag) ∧
      after.store.Holds (c.patched d [o]) ∧ before.store.SameBeside after.store c.id

section

variable {o : PatchOperation} (holds : w.store.Holds c) (found : c.dimension? d.name = some d)
include holds found

theorem Ends.idle (same : o.revise d.options = d.options) : Ends w c d o (.ok (d, c.tag)) w := by
  rw [Ends, same, Blueprint.patched_of_revise_eq found same]
  exact Or.inr ⟨rfl, holds, .of_filters_eq rfl _⟩

/-- A write of the patch is made or fails, and leaves the mirror and the tag in step with what is
stored. -/
theorem run_edit {e : FilterEdit} {d' : Dimension} {w₁ : World}
    (same : w₁.store.backend.filters = w.store.backend.filters)
    (applied : e.apply c = .ok (c.patched d [o]))
    (mirror : d' = { d with options := o.revise d.options })
    (told : (c.patched d [o]).tag = c.tag → o.revise d.options = d.options) : ∃ r w' t',
      ((edit c.id d' c.tag e) w₁).run answer t = (r, w', t') ∧ Ends w c d o r w' := by
  obtain ⟨r, w', run, ended⟩ := Request.run_edit answer t
    (holds.of_filters_eq same) applied fun h => Blueprint.patched_of_revise_eq found (told h)
  rcases ended with ⟨error, rfl, left⟩ | ⟨rfl, holds', beside⟩
  · exact ⟨_, _, _, Request.run_bind_of_error run _, Or.inl ⟨_, rfl, left.trans same⟩⟩
  · refine ⟨_, _, _, Request.run_bind run _, Or.inr ⟨?_, holds', ?_⟩⟩
    · rw [mirror]
    · exact (Store.SameBeside.of_filters_eq same _).trans beside

variable (settings t) in
/-- One operation of a patch, on the tag that is stored. -/
theorem run_apply (quiet : Quiet answer) (editable : c.isSubmitted = false) (hid : b.id = c.id)
    (told : (c.patched d [o]).tag = c.tag → o.revise d.options = d.options) : ∃ r w' t',
      ((apply settings b d c.tag o) w).run answer t = (r, w', t') ∧ Ends w c d o r w' := by
  cases action : o.action with
  | remove =>
    rw [apply_remove action, hid]
    by_cases nothing : (operands o).isEmpty = true
    · rw [if_pos nothing]
      have same : o.revise d.options = d.options := by
        rw [operands_eq, List.isEmpty_iff] at nothing
        simp [PatchOperation.revise, action, nothing, List.removeAll]
      exact ⟨_, w, t, rfl, .idle holds found same⟩
    · rw [if_neg nothing]
      have applied := FilterEdit.apply_removeOptions_eq editable found (operands o)
      rw [erase_operands action d] at applied
      exact run_edit holds found rfl applied (erase_operands action d) told
  | add =>
    rw [apply_add action, hid]
    have inserted := insert_operands action d
    -- from here on it only matters that `new` makes of the mirror what the operation is to make
    generalize ((operands o).filter fun v => !d.has v) = new at inserted ⊢
    by_cases nothing : new.isEmpty = true
    · have same : o.revise d.options = d.options := by
        rw [List.isEmpty_iff.mp nothing] at inserted
        exact (congrArg Dimension.options inserted).symm
      simp only [if_pos nothing]
      exact ⟨_, w, t, rfl, .idle holds found same⟩
    · simp only [if_neg nothing]
      have checks := Validation.leaves_dimension quiet settings.limits b.dataset d.name new w t
      rcases checked : ((Validation.dimension settings.limits b.dataset d.name new) w).run answer t
        with ⟨e | _, w₁, t₁⟩
      · rw [checked] at checks
        exact ⟨_, _, _, Request.run_bind_of_error checked _, Or.inl ⟨_, rfl, checks⟩⟩
      · rw [checked] at checks
        have applied := FilterEdit.apply_addOptions_eq editable found new
        rw [inserted] at applied
        rw [Request.run_bind checked]
        exact run_edit holds found checks applied inserted told

end

/-- How a patch ends, `done` being the operations that were carried out before: all of the others are
carried out too, or the first `k` of them and the next one fails. -/
def Reports (done operations : List PatchOperation) (tag : String) (k : Nat)
    (r : Except ServiceError (List PatchOperation × String)) : Prop :=
  (k = operations.length ∧ r = .ok (done ++ operations, tag)) ∨
    (k < operations.length ∧
      ∃ cause, r = .error (.patchFailed (done ++ operations.take k) tag cause))

theorem Reports.next {done rest : List PatchOperation} {o : PatchOperation} {tag : String} {k : Nat}
    {r : Except ServiceError (List PatchOperation × String)}
    (h : Reports (done ++ [o]) rest tag k r) : Reports done (o :: rest) tag (k + 1) r := by
  rcases h with ⟨rfl, rfl⟩ | ⟨left, cause, rfl⟩
  · exact Or.inl ⟨rfl, by rw [List.append_assoc]; rfl⟩
  · exact Or.inr ⟨Nat.succ_lt_succ left, cause, by rw [List.append_assoc]; rfl⟩

/-- A hash that tells apart what the operations of a patch make of a blueprint. -/
def Distinguishes (c : Blueprint) (d : Dimension) (operations : List PatchOperation) : Prop :=
  ∀ l l', l <+: operations → l' <+: operations →
    (c.patched d l).tag = (c.patched d l').tag → (c.patched d l).observed = (c.patched d l').observed

theorem Distinguishes.next {o : PatchOperation} {rest : List PatchOperation}
    (h : Distinguishes c d (o :: rest)) :
    Distinguishes (c.patched d [o]) { d with options := o.revise d.options } rest := by
  intro l l' hl hl' tags
  rw [Blueprint.patched_cons, Blueprint.patched_cons] at tags ⊢
  exact h _ _ (List.cons_prefix_cons.mpr ⟨rfl, hl⟩) (List.cons_prefix_cons.mpr ⟨rfl, hl'⟩) tags

/-- Whether the first operation has an effect can be told from the tag. -/
theorem Distinguishes.told {o : PatchOperation} {rest : List PatchOperation}
    (h : Distinguishes c d (o :: rest)) (found : c.dimension? d.name = some d)
    (tags : (c.patched d [o]).tag = c.tag) : o.revise d.options = d.options := by
  have start := Blueprint.patched_nil found
  have same := h [o] [] (List.cons_prefix_cons.mpr ⟨rfl, List.nil_prefix⟩) List.nil_prefix
    (by rw [start]; exact tags)
  exact PatchOperation.revise_eq_of_mem_iff (Blueprint.mem_revise_congr found same)

variable (settings t) in
/-- Operations of a patch one after the other: what is stored in the end is the blueprint after just
those that are reported, under the tag that is reported. -/
theorem run_applyAll (quiet : Quiet answer) (done : List PatchOperation)
    {operations : List PatchOperation} (holds : w.store.Holds c) (found : c.dimension? d.name = some d)
    (editable : c.isSubmitted = false) (hid : b.id = c.id)
    (told : Distinguishes c d operations) : ∃ k r w' t',
      ((applyAll settings b done d c.tag operations) w).run answer t = (r, w', t') ∧
      Reports done operations (c.patched d (operations.take k)).tag k r ∧
      w'.store.Holds (c.patched d (operations.take k)) ∧ w.store.SameBeside w'.store c.id := by
  -- the blueprint, the mirror and the tag move on together, so all are general
  induction operations generalizing c d w t done with
  | nil =>
    refine ⟨0, _, w, t, rfl, ?_⟩
    rw [List.take_nil, Blueprint.patched_nil found]
    exact ⟨Or.inl ⟨rfl, by rw [List.append_nil]⟩, holds, .of_filters_eq rfl _⟩
  | cons o rest ih =>
    obtain ⟨r, w₁, t₁, ran, ended⟩ :=
      run_apply t settings holds found quiet editable hid (told.told found)
    rw [applyAll]
    rcases ended with ⟨cause, rfl, left⟩ | ⟨rfl, holds', beside⟩
    · refine ⟨0, _, w₁, t₁, Request.run_bind (Request.run_attempt ran) _, ?_⟩
      rw [List.take_zero, Blueprint.patched_nil found]
      refine ⟨Or.inr ⟨Nat.zero_lt_succ _, cause, ?_⟩, holds.of_filters_eq left, .of_filters_eq left _⟩
      rw [List.take_zero, List.append_nil]
    · let counted : World :=
        { w₁ with counters := w₁.counters.increment (.patchOperations o.action) }
      have found' : (c.patched d [o]).dimension? d.name =
          some { d with options := o.revise d.options } :=
        Blueprint.dimension?_withOptions found _
      obtain ⟨k, r, w', t', rest_ran, report, holds'', beside'⟩ :=
        ih (done ++ [o]) (w := counted) (t := t₁) holds' found' editable hid told.next
      rw [Blueprint.patched_cons] at report holds''
      refine ⟨k + 1, r, w', t', ?_, ?_, holds'', beside.trans beside'⟩
      · refine (Request.run_bind (Request.run_attempt ran) _).trans ?_
        exact (Request.run_bind (Request.run_count _) _).trans rest_ran
      · exact report.next

/-- What a patch may make of a blueprint on its way. -/
def Drafts (b : Blueprint) (d : Dimension) (operations : List PatchOperation) (c : Blueprint) : Prop :=
  ∃ l, l <+: operations ∧ (c = b.patched d l ∨ c = b.promoted.patched d l)

/-- What a patch leaves of a blueprint as its reader gets it: the first `k` operations have been carried
out on the dimension and nothing else was done, under the tag of the content. -/
structure Patched (c : Blueprint) (d : Dimension) (operations : List PatchOperation) (k : Nat)
    (z : Blueprint) : Prop where
  options : z.dimension? d.name = some { d with options := Patch.revise d.options (operations.take k) }
  rest : z = (c.patched d (operations.take k)).marked z.etag z.stamp z.lastUpdated
  etag : z.etag = z.tag

/-- A hash that keeps apart what a patch may make of the blueprint tells these apart. -/
theorem distinguishes_of_separates {operations : List PatchOperation}
    (hash : Sha256.Separates fun m => ∃ c, Drafts b d operations c ∧ m = c.content)
    (caller : Caller) : Distinguishes (b.shownTo caller) d operations := by
  have draft (l : List PatchOperation) (hl : l <+: operations) :
      Drafts b d operations ((b.shownTo caller).patched d l) := by
    rcases b.shownTo_cases caller with same | same
    · exact ⟨l, hl, Or.inl (by rw [same])⟩
    · exact ⟨l, hl, Or.inr (by rw [same])⟩
  intro l l' hl hl' tags
  exact hash.observed_eq (draft l hl) (draft l' hl') tags

theorem promoted_eq_of_tag_eq {operations : List PatchOperation}
    (hash : Sha256.Separates fun m => ∃ c, Drafts b d operations c ∧ m = c.content)
    (found : b.dimension? d.name = some d) (tags : b.promoted.tag = b.tag) : b.promoted = b := by
  have found' : b.promoted.dimension? d.name = some d := found
  have same := hash.observed_eq ⟨[], List.nil_prefix, Or.inr (Blueprint.patched_nil found').symm⟩
    ⟨[], List.nil_prefix, Or.inl (Blueprint.patched_nil found).symm⟩ tags
  have published : some true = b.published := congrArg Observation.published same
  rw [Blueprint.promoted, published]

/-- A patch of a blueprint that can be edited, while nobody else writes. Either it may not read the
blueprint and does nothing, or it carries out the operations that it reports and no more, all of them
or those before the one that failed, and tells the tag of what is stored then. -/
theorem patch_does_what_it_reports (quiet : Quiet answer) (sound : w.store.Sound) (stored : w.Stores b)
    (editable : b.isSubmitted = false) {name : String} (found : b.dimension? name = some d)
    {operations : List PatchOperation} (size : Patch.size operations ≤ settings.maxPatchOptions)
    (hash : Sha256.Separates fun m => ∃ c, Drafts b d operations c ∧ m = c.content)
    (selector : Selector) (caller : Caller) : ∃ r w' t',
      ((patch settings b.id name operations selector caller) w).run answer t = (r, w', t') ∧
      ((∃ e, r = .error e ∧ (∀ done tag cause, e ≠ .patchFailed done tag cause) ∧
          ((Blueprints.get b.id selector caller) w).run answer t = (.error e, w', t') ∧
          w'.store.backend.filters = w.store.backend.filters ∧
          Blueprints.Refused answer w t b selector caller) ∨
        ∃ k z, w'.Stores z ∧ Patched (b.shownTo caller) d operations k z ∧
          Reports [] operations z.etag k r ∧ w.store.SameBeside w'.store b.id) := by
  obtain ⟨rfl, -⟩ := Blueprint.exists_modifyFirst found
  have checked : ((Request.ofExcept ((Patch.checkSize settings.maxPatchOptions operations).mapError
      ServiceError.patch)) w).run answer t = (.ok (), w, t) := by
    rw [Patch.checkSize, if_neg (Nat.not_lt.mpr size)]
    rfl
  have gets := Blueprints.run_get (t := t) quiet sound stored (promoted_eq_of_tag_eq hash found)
    selector caller
  rw [patch, Request.run_bind checked]
  rcases got : ((Blueprints.get b.id selector caller) w).run answer t with ⟨r, w₁, t₁⟩
  rw [got] at gets
  rcases gets with ⟨e, rfl, other, left, refused⟩ | ⟨⟨stamp, time, rfl⟩, holds, beside⟩
  · exact ⟨_, _, _, Request.run_bind_of_error got _, Or.inl ⟨e, rfl, other, rfl, left, refused⟩⟩
  · rw [Request.run_bind got]
    have distinguishes := distinguishes_of_separates hash caller
    have same : (b.shownTo caller).dimension? d.name = some d ∧
        (b.shownTo caller).isSubmitted = false ∧ (b.shownTo caller).id = b.id := by
      rcases b.shownTo_cases caller with shown | shown
      · rw [shown]
        exact ⟨found, editable, rfl⟩
      · rw [shown]
        exact ⟨found, editable, rfl⟩
    obtain ⟨found', editable', id'⟩ := same
    generalize b.shownTo caller = c at holds distinguishes found' editable' id' ⊢
    obtain ⟨k, r, w', t', ran, report, holds', beside'⟩ :=
      run_applyAll t₁ settings (b := c.marked c.tag stamp time) quiet [] holds found' editable' rfl
        distinguishes
    obtain ⟨-, stamp', time', stored'⟩ := holds'
    let z := (c.patched d (operations.take k)).marked (c.patched d (operations.take k)).tag stamp' time'
    refine ⟨r, w', t', ?_, Or.inr ⟨k, z, stored', ⟨?_, rfl, ?_⟩, report, ?_⟩⟩
    · have sought : (find (c.marked c.tag stamp time) d.name w₁).run answer t₁ = (.ok d, w₁, t₁) := by
        have same : (c.marked c.tag stamp time).dimension? d.name = some d := found'
        rw [find, same]
        rfl
      have passed : (ensureEditable (c.marked c.tag stamp time) w₁).run answer t₁ =
          (.ok (), w₁, t₁) := by
        have same : (c.marked c.tag stamp time).isSubmitted = false := editable'
        rw [ensureEditable, same]
        rfl
      refine (Request.run_bind sought _).trans ?_
      exact (Request.run_bind passed _).trans ran
    · exact Blueprint.dimension?_withOptions found' _
    · exact (Blueprint.tag_marked ..).symm
    · rw [← id'] at beside ⊢
      exact beside.trans beside'

end Selections

end

deriving instance DecidableEq for ServiceError

instance decidableEqResult [DecidableEq ε] [DecidableEq α] : DecidableEq (Except ε α)
  | .ok a, .ok b => decidable_of_iff (a = b) ⟨congrArg _, Except.ok.inj⟩
  | .error e, .error f => decidable_of_iff (e = f) ⟨congrArg _, Except.error.inj⟩
  | .ok _, .error _ => isFalse nofun
  | .error _, .ok _ => isFalse nofun

namespace Small

/-- The catalog answers, and nobody does anything meanwhile. -/
def alone (q : Query) (w : World) (t : Unit) : q.Reply × World × Unit := (reply q, w, t)

theorem alone_quiet : Quiet alone := fun _ _ _ => rfl

/-- The option of the catalog is added, then taken away. -/
def choices : List PatchOperation :=
  [⟨.add, Patch.optionsPath, ["27", " ", "27"]⟩, ⟨.remove, Patch.optionsPath, ["27"]⟩]

def age : Dimension := ⟨"age", []⟩

/-- The blank blueprint in a store that fails at the fourth access. -/
def failing : World := { storing blank with
  store := { (storing blank).store with
    backend := { (storing blank).store.backend with
      outage := fun n _ _ => if n = 3 then some "disk full" else none } } }

def draftContents : List Octets :=
  (List.range 3).flatMap fun n => [(blank.patched age (choices.take n)).content,
    (blank.promoted.patched age (choices.take n)).content]

theorem drafts_distinct : ∀ m ∈ draftContents, m.length < 1000 ∧
    ∀ m' ∈ draftContents, Sha256.hash m = Sha256.hash m' → m = m' := by decide +kernel

theorem drafts_separates :
    Sha256.Separates fun m => ∃ c, Selections.Drafts blank age choices c ∧ m = c.content := by
  refine .of_contents ?_ drafts_distinct
  rintro c ⟨l, hl, made⟩
  rw [List.prefix_iff_eq_take.mp hl] at made
  have short : l.length < 3 := Nat.lt_succ_of_le hl.length_le
  refine List.mem_flatMap.mpr ⟨l.length, List.mem_range.mpr short, ?_⟩
  rcases made with rfl | rfl
  · exact List.mem_cons_self
  · exact List.mem_cons_of_mem _ List.mem_cons_self

def patching (caller : Caller) : Except ServiceError (List PatchOperation × String) × World × Unit :=
  ((Selections.patch settings "f" "age" choices .any caller) failing).run alone ()

theorem patching_known : (patching known).1 =
    .error (.patchFailed (choices.take 1) chosen.etag (.store (.backend "disk full"))) := by
  decide +kernel

theorem failing_stores : failing.Stores blank :=
  (World.stores_of_filters_eq rfl).mpr (storing_stores blank)

theorem failing_sound : failing.store.Sound :=
  (storing_sound (b := blank) (by decide +kernel)).of_filters_eq rfl

/-- Who may not read the blueprint gets another error than that of a patch. -/
theorem patching_stranger : failing.Stores blank ∧ blank.isSubmitted = false ∧
    blank.dimension? "age" = some age ∧ Patch.size choices ≤ settings.maxPatchOptions ∧
    (patching .anonymous).1 = .error (.filterNotFound "f") :=
  ⟨failing_stores, rfl, rfl, by decide, by decide +kernel⟩

theorem patching_stopped : ∃ z, (patching known).2.1.Stores z ∧
    z.dimension? "age" = some ⟨"age", ["27"]⟩ ∧ z.etag = z.tag ∧ z.etag = chosen.etag := by
  have patched : ∃ r w' t', ((Selections.patch settings blank.id "age" choices .any known)
      failing).run alone () = (r, w', t') ∧ _ :=
    Selections.patch_does_what_it_reports alone_quiet failing_sound failing_stores rfl rfl (by decide)
      drafts_separates .any known
  obtain ⟨r, w, t, ran, ended⟩ := patched
  have computed := patching_known
  have same : patching known = (r, w, t) := ran
  rw [same] at computed ⊢
  simp only at computed
  subst computed
  rcases ended with ⟨e, failed, other, -, -, -⟩ | ⟨k, z, stored, patched, report, -⟩
  · exact absurd (Except.error.inj failed).symm (other _ _ _)
  · rcases report with ⟨-, finished⟩ | ⟨-, cause, stopped⟩
    · simp at finished
    · simp only [Except.error.injEq, ServiceError.patchFailed.injEq] at stopped
      obtain ⟨done, tag, -⟩ := stopped
      have options := patched.options
      rw [List.nil_append] at done
      rw [← done] at options
      exact ⟨z, stored, options, patched.etag, tag.symm⟩

end Small

end DatasetFilters
