import DatasetFilters.Proofs.Service.Strokes
import DatasetFilters.Proofs.Store.Inventory

namespace DatasetFilters

namespace Table

variable {κ α : Type} [DecidableEq κ]

/-- Nothing has been written but the value of a key, if that. -/
def OnlyAt (key : κ) (l l' : List (κ × α)) : Prop := l' = l ∨ ∃ value, l' = put key value l

theorem OnlyAt.put {key : κ} {l l' : List (κ × α)} (h : OnlyAt key l l') (value : α) :
    OnlyAt key l (put key value l') := by
  rcases h with rfl | ⟨old, rfl⟩
  · exact Or.inr ⟨value, rfl⟩
  · exact Or.inr ⟨value, put_put key old value l⟩

end Table

/-- Both collections are as they were. -/
def World.SameDocuments (w w' : World) : Prop :=
  ∀ c, w'.store.backend.documents c = w.store.backend.documents c

/-- Nobody writes to a document while a question is open. -/
def Still (answer : (q : Query) → World → σ → q.Reply × World × σ) : Prop :=
  ∀ q (w : World) t, w.SameDocuments (answer q w t).2.1

/-- Moments, the last one first, that lead from one world to another with nobody writing in between. -/
inductive Unbroken (start : World) : List Moment → World → Prop
  | start {now : World} (same : start.SameDocuments now) : Unbroken start [] now
  | next {m : Moment} {own : List Moment} {now : World} (h : Unbroken start own m.before)
      (same : m.after.SameDocuments now) : Unbroken start (m :: own) now

/-- Strokes, the last one first, that lead from one world to another with nobody writing in between. -/
inductive Leads (settings : Settings) (start : World) : List Stroke → World → Prop
  | start {now : World} (same : start.SameDocuments now) : Leads settings start [] now
  | next {strokes : List Stroke} {stroke : Stroke} {own : List Moment} {before after now : World}
      (h : Leads settings start strokes before) (does : stroke.Does settings own before after)
      (same : after.SameDocuments now) : Leads settings start (stroke :: strokes) now

variable {settings : Settings} {me : Client} {own : List Moment} {strokes : List Stroke}
  {start now next w w' : World}

namespace World.SameDocuments

theorem of_eq (filters : w'.store.backend.filters = w.store.backend.filters)
    (outputs : w'.store.backend.outputs = w.store.backend.outputs) : w.SameDocuments w' := by
  intro c
  cases c with
  | filters => exact filters
  | outputs => exact outputs

theorem refl (w : World) : w.SameDocuments w := fun _ => rfl

theorem trans {w'' : World} (h : w.SameDocuments w') (h' : w'.SameDocuments w'') :
    w.SameDocuments w'' := fun c => (h' c).trans (h c)

theorem filters (h : w.SameDocuments w') : w'.store.backend.filters = w.store.backend.filters :=
  h .filters

theorem outputs (h : w.SameDocuments w') : w'.store.backend.outputs = w.store.backend.outputs :=
  h .outputs

theorem sound (h : w.SameDocuments w') (sound : w.store.Sound) : w'.store.Sound :=
  sound.of_filters_eq h.filters

end World.SameDocuments

theorem Leads.of_same (h : Leads settings start strokes now) (same : now.SameDocuments next) :
    Leads settings start strokes next := by
  cases h with
  | start h => exact .start (h.trans same)
  | next h does h' => exact .next h does (h'.trans same)

theorem Traced.leads (h : Traced settings own strokes) (unbroken : Unbroken start own now) :
    Leads settings start strokes now := by
  induction h generalizing now with
  | start =>
    cases unbroken with
    | start same => exact .start same
  | calm h calm ih =>
    cases unbroken with
    | next unbroken same =>
      exact (ih unbroken).of_same ((World.SameDocuments.of_eq calm.filters calm.outputs).trans same)
  | next h does ih =>
    cases unbroken with
    | next unbroken same => exact .next (ih unbroken) does same

section

variable {answer : (q : Query) → World → σ → q.Reply × World × σ} {t t' : σ}
  {failed : ServiceError → List Moment → Prop} {p : α → List Moment → Prop}
  {r : Except ServiceError α}

theorem Step.Accounts.runs {step : Step ServiceError α}
    (h : step.Accounts (.story settings failed) me p own now) (still : Still answer)
    (sound : now.store.Sound) (unbroken : Unbroken start own now)
    (ran : step.run answer t = (r, w', t')) :
    ∃ own', Unbroken start own' w' ∧ Outcome p failed r own' := by
  induction step generalizing own now t with
  | done result w =>
    obtain ⟨rfl, rfl, -⟩ : result = r ∧ w = w' ∧ t = t' := by simpa [run] using ran
    cases result with
    | ok a =>
      obtain ⟨rfl, hp⟩ := h
      exact ⟨own, unbroken, hp⟩
    | error e =>
      obtain ⟨rfl, hf⟩ := h
      exact ⟨own, unbroken, hf⟩
  | acted w resume ih =>
    obtain ⟨⟨strokes, traced⟩, rest⟩ := h trivial
    have sound' : w.store.Sound := (traced.struck _ List.mem_cons_self).sound sound
    exact ih w (rest w sound') sound' (unbroken.next (.refl w)) ran
  | ask w q resume ih =>
    obtain ⟨rfl, h⟩ := h
    obtain ⟨-, rest⟩ := h trivial
    have same := still q w t
    exact ih _ _ (rest _ _ (same.sound sound)) (same.sound sound) (unbroken.next same) ran

/-- What a request accounts for comes about when it runs on its own. -/
theorem Request.Accounts.runs {request : Request ServiceError α}
    (h : request.Accounts (.story settings failed) me [] p) (still : Still answer)
    (sound : w.store.Sound) (ran : (request w).run answer t = (r, w', t')) :
    ∃ own, Unbroken w own w' ∧ Step.Outcome p failed r own :=
  (h w sound).runs still sound (.start (.refl w)) ran

end

variable {answer : (q : Query) → World → σ → q.Reply × World × σ} {t t' : σ} in
/-- A request that runs on its own leads by the strokes of its call to where it ends. -/
theorem ServiceCall.runs {call : ServiceCall} {caller : Caller} {r : Except ServiceError Answer}
    (still : Still answer) (sound : w.store.Sound)
    (ran : ((call.request settings caller) w).run answer t = (r, w', t')) :
    ∃ strokes, call.Ends caller r strokes ∧ Leads settings w strokes w' := by
  have story : (call.request settings caller).Accounts (.told settings ⟨0, caller, call⟩)
      ⟨0, caller, call⟩ [] fun a => Client.Told settings ⟨0, caller, call⟩ (.ok a) :=
    ServiceCall.story_request ⟨0, caller, call⟩
  obtain ⟨own, unbroken, told⟩ := story.runs still sound ran
  have told : Client.Told settings ⟨0, caller, call⟩ r own := by cases r <;> exact told
  obtain ⟨strokes, ends, traced⟩ := told
  exact ⟨strokes, ends, traced.leads unbroken⟩

/-- An edit that is taken writes the blueprint of its id, if anything. -/
theorem World.TakesEdit.filters {id tag : String} {e : FilterEdit} (h : now.TakesEdit id tag e next)
    (sound : now.store.Sound) : next.store.backend.filters = now.store.backend.filters ∨
      ∃ text, next.store.backend.filters = Table.put id text now.store.backend.filters := by
  obtain ⟨y, z, hy, -, hz, ⟨-, rfl⟩ | ⟨-, t, rfl⟩⟩ := h
  · exact Or.inl rfl
  · obtain rfl : z.id = id := (FilterEdit.apply_id_etag hz).1.trans (sound.id_eq hy)
    exact Or.inr ⟨_, rfl⟩

/-- A stroke writes its target, if anything. -/
theorem Stroke.Does.documents {stroke : Stroke} (h : stroke.Does settings own now next)
    (sound : now.store.Sound) (c : Collection) :
    next.store.backend.documents c = now.store.backend.documents c ∨
      ∃ key text, stroke.target? = some (c, key) ∧
        next.store.backend.documents c = Table.put key text (now.store.backend.documents c) := by
  by_cases idle : ∀ key, stroke.target? ≠ some (c, key)
  · exact Or.inl (h.documents_eq idle)
  · obtain ⟨key, target⟩ := not_forall_not.mp idle
    suffices next.store.backend.documents c = now.store.backend.documents c ∨
        ∃ text, next.store.backend.documents c = Table.put key text (now.store.backend.documents c) by
      obtain same | ⟨text, written⟩ := this
      · exact Or.inl same
      · exact Or.inr ⟨key, text, target, written⟩
    cases stroke with
    | creates b =>
      obtain ⟨-, -, -, -, t, rfl⟩ := h
      cases target
      exact Or.inr ⟨_, rfl⟩
    | edits id tag e =>
      cases target
      exact h.2.filters sound
    | marks id tag outputId time =>
      cases target
      exact h.2.2.filters sound
    | makes o =>
      obtain ⟨-, -, t, rfl⟩ := h
      cases target
      exact Or.inr ⟨_, rfl⟩
    | tends id u completed =>
      obtain ⟨t, o, p, -, -, rfl⟩ := h
      cases target
      exact Or.inr ⟨_, rfl⟩
    | records id e =>
      obtain ⟨t, o, -, rfl⟩ := h
      cases target
      exact Or.inr ⟨_, rfl⟩
    | sends | counts => cases target

namespace Leads

theorem sound (h : Leads settings start strokes now) (sound : start.store.Sound) :
    now.store.Sound := by
  induction h with
  | start same => exact same.sound sound
  | next h does same ih => exact same.sound (does.sound ih)

/-- Of a collection that only one document of is written, all others are left. -/
theorem onlyAt (h : Leads settings start strokes now) (sound : start.store.Sound) {c : Collection}
    {key : String} (mine : ∀ stroke ∈ strokes, ∀ k, stroke.target? = some (c, k) → k = key) :
    Table.OnlyAt key (start.store.backend.documents c) (now.store.backend.documents c) := by
  induction h with
  | start same => exact Or.inl (same c)
  | @next strokes stroke own before after now h does same ih =>
    have earlier := ih fun stroke hs => mine stroke (List.mem_cons_of_mem _ hs)
    rw [same c]
    rcases does.documents (h.sound sound) c with kept | ⟨k, text, target, written⟩
    · exact kept ▸ earlier
    · obtain rfl := mine stroke List.mem_cons_self k target
      exact written ▸ earlier.put text

/-- A collection that no stroke writes to is left as a whole. -/
theorem documents (h : Leads settings start strokes now) (sound : start.store.Sound) {c : Collection}
    (idle : ∀ stroke ∈ strokes, ∀ k, stroke.target? ≠ some (c, k)) :
    now.store.backend.documents c = start.store.backend.documents c := by
  induction h with
  | start same => exact same c
  | @next strokes stroke own before after now h does same ih =>
    rw [same c, ← ih fun stroke hs => idle stroke (List.mem_cons_of_mem _ hs)]
    rcases does.documents (h.sound sound) c with kept | ⟨k, text, target, -⟩
    · exact kept
    · exact absurd target (idle stroke List.mem_cons_self k)

end Leads

end DatasetFilters
