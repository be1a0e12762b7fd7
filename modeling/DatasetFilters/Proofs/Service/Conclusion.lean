import DatasetFilters.Proofs.Service.Calls
import DatasetFilters.Proofs.Service.Composition

namespace DatasetFilters

variable {answers : Nat → (q : Query) → q.Reply → Prop} {me : Client} {past past' : List Moment}

namespace Step

variable (answers me) in
/-- A request under way that comes to an end as `post` has it, in the light of the past and of the
world as it finds it then, however its questions are answered and whatever happens while it is
suspended. -/
def Leads (post : Except ε α → World → List Moment → World → Prop) :
    Step ε α → List Moment → World → Prop
  | done r w, past, now => post r w past now
  | acted w resume, past, now => ∀ past' now', (⟨some me, now, w⟩ :: past) <:+ past' →
      now'.store.Sound → (resume now').Leads post past' now'
  | ask w q resume, past, now => ∀ past' now' r, (⟨some me, now, w⟩ :: past) <:+ past' →
      now'.store.Sound → answers past'.length q r → (resume r now').Leads post past' now'

/-- An end that leaves the world as it is found, with a result that `p` has or an error that `q` has. -/
def Settled (p : α → List Moment → Prop) (q : ε → List Moment → Prop) :
    Except ε α → World → List Moment → World → Prop
  | .ok a, w, past, now => w = now ∧ p a past
  | .error e, _, past, _ => q e past

/-- Any end but one with an error that `q` does not have. -/
def Failing (q : ε → List Moment → Prop) (r : Except ε α) (_ : World) (past : List Moment)
    (_ : World) : Prop :=
  ∀ e, r = .error e → q e past

variable {now : World} {post : Except ε α → World → List Moment → World → Prop}

/-- What a request comes to, and from there what its continuation comes to. Errors are handed on. -/
theorem Leads.andThen {step : Step ε α} {f : α → Request ε β}
    {post' : Except ε β → World → List Moment → World → Prop}
    (h : step.Leads answers me post past now) (sound : now.store.Sound)
    (hf : ∀ a w past' now', past <:+ past' → now'.store.Sound → post (.ok a) w past' now' →
      (f a w).Leads answers me post' past' now')
    (he : ∀ e w past' now', past <:+ past' → post (.error e) w past' now' →
      post' (.error e) w past' now') :
    (step.andThen f).Leads answers me post' past now := by
  induction step generalizing past now with
  | done r w =>
    cases r with
    | ok a => exact hf a w past now (List.suffix_refl past) sound h
    | error e => exact he e w past now (List.suffix_refl past) h
  | acted w resume ih =>
    intro past' now' hs sound'
    have grown := (List.suffix_cons _ _).trans hs
    exact ih now' (h past' now' hs sound') sound'
      (fun a w past'' now'' hs' => hf a w past'' now'' (grown.trans hs'))
      fun e w past'' now'' hs' => he e w past'' now'' (grown.trans hs')
  | ask w q resume ih =>
    intro past' now' r hs sound' hr
    have grown := (List.suffix_cons _ _).trans hs
    exact ih r now' (h past' now' r hs sound' hr) sound'
      (fun a w past'' now'' hs' => hf a w past'' now'' (grown.trans hs'))
      fun e w past'' now'' hs' => he e w past'' now'' (grown.trans hs')

theorem leads_of (step : Step ε α)
    (h : ∀ r w past' now', past <:+ past' → post r w past' now') :
    step.Leads answers me post past now := by
  induction step generalizing past now with
  | done r w => exact h r w past now (List.suffix_refl past)
  | acted w resume ih =>
    intro past' now' hs _
    have grown := (List.suffix_cons _ _).trans hs
    exact ih now' fun r w past'' now'' hs' => h r w past'' now'' (grown.trans hs')
  | ask w q resume ih =>
    intro past' now' r hs _ _
    have grown := (List.suffix_cons _ _).trans hs
    exact ih r now' fun r w past'' now'' hs' => h r w past'' now'' (grown.trans hs')

end Step

namespace Request

variable (answers me past) in
/-- A request, sent after some past, that ends as `p` has it or fails as `q` has it. -/
def Concludes (p : α → List Moment → Prop) (q : ε → List Moment → Prop) (r : Request ε α) : Prop :=
  ∀ now, now.store.Sound → (r now).Leads answers me (Step.Settled p q) past now

variable (answers me past) in
/-- A request, sent after some past, that fails as `q` has it if it fails. -/
def Fails (q : ε → List Moment → Prop) (r : Request ε α) : Prop :=
  ∀ now, now.store.Sound → (r now).Leads answers me (Step.Failing q) past now

variable {p : α → List Moment → Prop} {q : ε → List Moment → Prop}

theorem concludes_pure {a : α} (h : p a past) :
    (pure a : Request ε α).Concludes answers me past p q :=
  fun _ _ => ⟨rfl, h⟩

theorem concludes_fail {e : ε} (h : q e past) :
    (fail e : Request ε α).Concludes answers me past p q :=
  fun _ _ => h

theorem concludes_ofExcept {r : Except ε α} (ok : ∀ a, r = .ok a → p a past)
    (error : ∀ e, r = .error e → q e past) : (ofExcept r).Concludes answers me past p q := by
  intro now _
  cases r with
  | ok a => exact ⟨rfl, ok a rfl⟩
  | error e => exact error e rfl

theorem concludes_ite {c : Prop} [Decidable c] {r r' : Request ε α}
    (h : c → r.Concludes answers me past p q) (h' : ¬c → r'.Concludes answers me past p q) :
    (if c then r else r').Concludes answers me past p q := by
  by_cases hc : c
  · rw [if_pos hc]
    exact h hc
  · rw [if_neg hc]
    exact h' hc

theorem Concludes.bind {r : Request ε α} {f : α → Request ε β} {p' : β → List Moment → Prop}
    (h : r.Concludes answers me past p q)
    (hf : ∀ a past', past <:+ past' → p a past' → (f a).Concludes answers me past' p' q) :
    (r >>= f).Concludes answers me past p' q := by
  intro now sound
  refine (h now sound).andThen sound ?_ fun _ _ _ _ _ error => error
  rintro a w past' now' hs sound' ⟨rfl, ha⟩
  exact hf a past' hs ha w sound'

theorem Concludes.weaken {r : Request ε α} {p' : α → List Moment → Prop}
    {q' : ε → List Moment → Prop} (h : r.Concludes answers me past p q)
    (hp : ∀ a past', past <:+ past' → p a past' → p' a past')
    (hq : ∀ e past', past <:+ past' → q e past' → q' e past') :
    r.Concludes answers me past p' q' := by
  intro now sound
  rw [← Step.andThen_pure (r now)]
  refine (h now sound).andThen sound ?_ fun e _ past' _ hs error => hq e past' hs error
  rintro a w past' now' hs - ⟨rfl, ha⟩
  exact ⟨rfl, hp a past' hs ha⟩

/-- What comes after a request that concludes. -/
theorem Concludes.then_fails {r : Request ε α} {f : α → Request ε β}
    (h : r.Concludes answers me past p q)
    (hf : ∀ a past', past <:+ past' → p a past' → (f a).Fails answers me past' q) :
    (r >>= f).Fails answers me past q := by
  intro now sound
  refine (h now sound).andThen sound ?_ ?_
  · rintro a w past' now' hs sound' ⟨rfl, ha⟩
    exact hf a past' hs ha w sound'
  · intro e w past' now' _ error e' he'
    obtain rfl := Except.error.inj he'
    exact error

/-- The same where what comes after is itself followed by something. -/
theorem Concludes.then_then_fails {r : Request ε α} {f : α → Request ε β} {g : β → Request ε γ}
    (h : r.Concludes answers me past p q)
    (hf : ∀ a past', past <:+ past' → p a past' → (f a >>= g).Fails answers me past' q) :
    ((r >>= f) >>= g).Fails answers me past q := by
  rw [bind_assoc]
  exact h.then_fails hf

theorem fails_pure (a : α) : (pure a : Request ε α).Fails answers me past q :=
  fun _ _ => by simp [Step.Leads, Step.Failing, pure]

theorem fails_of (r : Request ε α) (h : ∀ e past', past <:+ past' → q e past') :
    r.Fails answers me past q :=
  fun now _ => (r now).leads_of fun _ _ past' _ hs e _ => h e past' hs

/-- An action; what comes of it is known with the moment at which it happened. -/
theorem concludes_act {f : World → α × World}
    (h : ∀ now past', now.store.Sound → (⟨some me, now, (f now).2⟩ :: past) <:+ past' →
      p (f now).1 past') : (act f : Request ε α).Concludes answers me past p q :=
  fun now sound past' _ hs _ => ⟨rfl, h now past' sound hs⟩

theorem concludes_act_bind {f : World → α × World} {g : α → Request ε β} {p : β → List Moment → Prop}
    (h : ∀ a past', past <:+ past' → (g a).Concludes answers me past' p q) :
    (act f >>= g).Concludes answers me past p q := by
  have acts : (act f : Request ε α).Concludes answers me past (fun _ _ => True) q :=
    concludes_act fun _ _ _ _ => trivial
  exact acts.bind fun a past' hs _ => h a past' hs

theorem concludes_ask (query : Query) : (ask query : Request ε query.Reply).Concludes answers me past
    (fun r past' => me.Heard answers past' query r) q :=
  fun _ _ past' _ _ hs _ hr =>
    ⟨rfl, _, past, past'.length, hs, rfl, hs.length_le, Nat.le_refl _, hr⟩

theorem concludes_answered {q : ServiceError → List Moment → Prop} {reply : CatalogReply α}
    (h : ∀ e, reply = .error e → q (.ofCatalog e) past) :
    (answered reply).Concludes answers me past (fun a _ => reply = .ok a) q := by
  refine concludes_ofExcept ?_ ?_
  all_goals cases reply
  all_goals intro x hx
  · simp [Except.mapError] at hx
  · exact congrArg Except.ok (Except.ok.inj hx)
  · obtain rfl := Except.error.inj hx
    exact h _ rfl
  · simp [Except.mapError] at hx

/-- A read concludes as its access to a sound store does, without a change. -/
theorem concludes_read {q : ServiceError → List Moment → Prop}
    {f : Store → Except StoreError α × Store}
    (h : ∀ now past', now.store.Sound →
      (⟨some me, now, { now with store := (f now.store).2 }⟩ :: past) <:+ past' →
      (∀ a, (f now.store).1 = .ok a → p a past') ∧
        ∀ e, (f now.store).1 = .error e → q (.ofStore e) past') :
    (read f).Concludes answers me past p q := by
  have accessed : (access f : Request ServiceError _).Concludes answers me past
      (fun r past' => (∀ a, r = .ok a → p a past') ∧ ∀ e, r = .error e → q (.ofStore e) past') q :=
    concludes_act h
  refine accessed.bind ?_
  rintro (e | a) past' - ⟨ok, error⟩
  · exact concludes_fail (error e rfl)
  · exact concludes_pure (ok a rfl)

/-- A write concludes as its access does at one of the client's moments. -/
theorem concludes_write {q : ServiceError → List Moment → Prop}
    {f : Store → Instant → Except StoreError α × Store}
    (h : ∀ t now past', now.store.Sound →
      (∃ m ∈ past', m.mover = some me ∧ m.before = now) →
      (∀ a, (f now.store t).1 = .ok a → p a past') ∧
        ∀ e, (f now.store t).1 = .error e → q (.ofStore e) past') :
    (write f).Concludes answers me past p q := by
  refine concludes_act_bind fun t past₁ _ => concludes_read ?_
  intro now past₂ sound hs
  exact h t now past₂ sound ⟨_, hs.mem List.mem_cons_self, rfl, rfl⟩

end Request

namespace Step

variable (answers me) in
/-- A request that was left in some past and comes to its end as `post` has it when it goes on, whatever
was added to that past. -/
def Pends (post : Except ε α → World → List Moment → World → Prop) :
    Step ε α → List Moment → Prop
  | done r w, past => ∃ past₀ now, past₀ <:+ past ∧ post r w past₀ now
  | acted _ resume, past => ∀ past' now', past <:+ past' → now'.store.Sound →
      (resume now').Leads answers me post past' now'
  | ask _ q resume, past => ∀ past' now' r, past <:+ past' → now'.store.Sound →
      answers past'.length q r → (resume r now').Leads answers me post past' now'

variable {now : World} {post : Except ε α → World → List Moment → World → Prop}

theorem Pends.grown {step : Step ε α} (h : step.Pends answers me post past) (hp : past <:+ past') :
    step.Pends answers me post past' := by
  cases step with
  | done r w =>
    obtain ⟨past₀, now, hs, hpost⟩ := h
    exact ⟨past₀, now, hs.trans hp, hpost⟩
  | acted w resume => exact fun past'' now' hs => h past'' now' (hp.trans hs)
  | ask w q resume => exact fun past'' now' r hs => h past'' now' r (hp.trans hs)

theorem Leads.pends {step : Step ε α} (h : step.Leads answers me post past now) :
    step.Pends answers me post (⟨some me, now, step.world⟩ :: past) := by
  cases step with
  | done r w => exact ⟨past, now, List.suffix_cons _ _, h⟩
  | acted w resume => exact h
  | ask w q resume => exact h

theorem Pends.resumes {step step' : Step ε α} (h : step.Pends answers me post past)
    (sound : now.store.Sound) (hr : step.Resumes (answers past.length) now step') :
    step'.Leads answers me post past now := by
  cases hr with
  | acted left resume => exact h past now (List.suffix_refl past) sound
  | answered left q resume r hq => exact h past now r (List.suffix_refl past) sound hq

end Step

/-- How the request of a client comes to its end by itself, it comes to its end in a run. -/
theorem Run.pends {settings : Settings} {start : World} {s : Server}
    {post : Except ServiceError Answer → World → List Moment → World → Prop}
    (run : Run settings answers start past s) (sound : ∀ m ∈ past, m.before.store.Sound)
    (leads : ∀ past now, now.store.Sound →
      (me.call.request settings me.caller now).Leads answers me post past now)
    {step : Step ServiceError Answer} (sent : ⟨me, step⟩ ∈ s.tasks) :
    step.Pends answers me post past := by
  induction run generalizing step with
  | start => simp at sent
  | @next past s s' mover run move ih =>
    have hnow : s.world.store.Sound := sound _ List.mem_cons_self
    have before {step : Step ServiceError Answer} (sent : ⟨me, step⟩ ∈ s.tasks) :
        step.Pends answers me post past :=
      ih (fun m hm => sound m (List.mem_cons_of_mem _ hm)) sent
    cases move with
    | enter caller call =>
      rcases List.mem_append.mp sent with sent | sent
      · exact (before sent).grown (List.suffix_cons _ _)
      · obtain ⟨rfl, rfl⟩ := Task.mk.inj (List.mem_singleton.mp sent)
        exact (leads past s.world hnow).pends
    | goOn i task step' hi hr =>
      rcases List.mem_or_eq_of_mem_set sent with sent | same
      · exact (before sent).grown (List.suffix_cons _ _)
      · obtain ⟨rfl, rfl⟩ := Task.mk.inj same
        exact ((before (List.mem_of_getElem? hi)).resumes hnow hr).pends
    | receive | close => exact (before sent).grown (List.suffix_cons _ _)

end DatasetFilters
