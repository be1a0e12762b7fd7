import DatasetFilters.Api.Answer
import DatasetFilters.Proofs.Etag.Identity
import DatasetFilters.Proofs.Service.Course
import DatasetFilters.Proofs.Store.Links

namespace DatasetFilters

/-- The worlds agree but for the texts of links. -/
structure World.Alike (w w' : World) : Prop where
  store : w.store.Alike w'.store
  rest : { w with store := {} } = { w' with store := {} }

namespace World.Alike

variable {w w' : World}

theorem eq_rest (h : w.Alike w') : w' = { w with store := w'.store } := by
  cases w
  cases w'
  simpa [eq_comm] using h.rest

end World.Alike

/-- Two requests under way that ask nothing, go on from related worlds to related worlds, and end
with related results. -/
inductive Step.Agree (R : World → World → Prop) (p : Except ε α → Except δ β → Prop) :
    Step ε α → Step δ β → Prop
  | done {r : Except ε α} {r' : Except δ β} {w w' : World} (hr : p r r') (hw : R w w') :
      Agree R p (.done r w) (.done r' w')
  | acted {w w' : World} {resume : World → Step ε α} {resume' : World → Step δ β} (hw : R w w')
      (next : ∀ v v', R v v' → Agree R p (resume v) (resume' v')) :
      Agree R p (.acted w resume) (.acted w' resume')

def Request.Agree (R : World → World → Prop) (p : Except ε α → Except δ β → Prop)
    (r : Request ε α) (r' : Request δ β) : Prop :=
  ∀ w w', R w w' → (r w).Agree R p (r' w')

section

variable {R : World → World → Prop}

theorem Step.Agree.andThen {p : α → β → Prop} {p' : Except ε γ → Except ε δ → Prop}
    {step : Step ε α} {step' : Step ε β} {f : α → Request ε γ} {f' : β → Request ε δ}
    (h : step.Agree R (Both p) step') (error : ∀ e, p' (.error e) (.error e))
    (ok : ∀ a b, p a b → (f a).Agree R p' (f' b)) :
    (step.andThen f).Agree R p' (step'.andThen f') := by
  induction h with
  | done hr hw =>
    cases hr with
    | error e => exact .done (error e) hw
    | ok hab => exact ok _ _ hab _ _ hw
  | acted hw _ ih => exact .acted hw ih

theorem Step.Agree.mapResult {p : Except ε α → Except δ β → Prop}
    {p' : Except ε' α' → Except δ' β' → Prop} {step : Step ε α} {step' : Step δ β}
    {f : Except ε α → Except ε' α'} {f' : Except δ β → Except δ' β'} (h : step.Agree R p step')
    (hf : ∀ r r', p r r' → p' (f r) (f' r')) :
    (step.mapResult f).Agree R p' (step'.mapResult f') := by
  induction h with
  | done hr hw => exact .done (hf _ _ hr) hw
  | acted hw _ ih => exact .acted hw ih

/-- Both end, one action right after the other, and `answer` is not asked. -/
theorem Step.Agree.run {p : Except ε α → Except δ β → Prop} {step : Step ε α} {step' : Step δ β}
    (h : step.Agree R p step') (answer : (q : Query) → World → σ → q.Reply × World × σ) (t : σ) :
    p (step.run answer t).1 (step'.run answer t).1 ∧
      R (step.run answer t).2.1 (step'.run answer t).2.1 ∧
      (step.run answer t).2.2 = (step'.run answer t).2.2 := by
  induction h with
  | done hr hw => exact ⟨hr, hw, rfl⟩
  | acted hw _ ih => exact ih _ _ hw

namespace Request

theorem agree_ofExcept {p : Except ε α → Except δ β → Prop} {r : Except ε α} {r' : Except δ β}
    (h : p r r') : (ofExcept r).Agree R p (ofExcept r') :=
  fun _ _ hw => .done h hw

theorem agree_pure {p : Except ε α → Except δ β → Prop} {a : α} {b : β} (h : p (.ok a) (.ok b)) :
    (pure a : Request ε α).Agree R p (pure b : Request δ β) :=
  fun _ _ hw => .done h hw

theorem agree_fail {p : Except ε α → Except δ β → Prop} {e : ε} {e' : δ}
    (h : p (.error e) (.error e')) :
    (fail e : Request ε α).Agree R p (fail e' : Request δ β) :=
  fun _ _ hw => .done h hw

theorem Agree.bind {p : α → β → Prop} {p' : Except ε γ → Except ε δ → Prop} {r : Request ε α}
    {r' : Request ε β} {f : α → Request ε γ} {f' : β → Request ε δ} (h : r.Agree R (Both p) r')
    (error : ∀ e, p' (.error e) (.error e)) (ok : ∀ a b, p a b → (f a).Agree R p' (f' b)) :
    (r >>= f).Agree R p' (r' >>= f') :=
  fun w w' hw => (h w w' hw).andThen error ok

theorem Agree.mapError {p : α → β → Prop} {r : Request ε α} {r' : Request ε β}
    (h : r.Agree R (Both p) r') (f : ε → δ) : (r.mapError f).Agree R (Both p) (r'.mapError f) :=
  fun w w' hw => (h w w' hw).mapResult fun _ _ hr => hr.mapError f

theorem agree_act {p : α → β → Prop} {f : World → α × World} {f' : World → β × World}
    (h : ∀ w w', R w w' → p (f w).1 (f' w').1 ∧ R (f w).2 (f' w').2) :
    (act f : Request ε α).Agree R (Both p) (act f' : Request ε β) := by
  intro w w' hw
  obtain ⟨hp, hnext⟩ := h w w' hw
  exact .acted hnext fun _ _ hv => .done (.ok hp) hv

end Request
end

namespace Request

/-- Requests that run one after the other, each to its end. -/
def inTurn (answer : (q : Query) → World → σ → q.Reply × World × σ) :
    List (Request ε α) → World → σ → List (Except ε α) × World × σ
  | [], w, t => ([], w, t)
  | r :: rs, w, t =>
    let (a, w, t) := (r w).run answer t
    let (as, w, t) := inTurn answer rs w t
    (a :: as, w, t)

theorem agree_inTurn {R : World → World → Prop} {p : Except ε α → Except δ β → Prop}
    {rs : List (Request ε α)} {rs' : List (Request δ β)} (h : List.Forall₂ (Agree R p) rs rs')
    (answer : (q : Query) → World → σ → q.Reply × World × σ) {w w' : World} (hw : R w w') (t : σ) :
    List.Forall₂ p (inTurn answer rs w t).1 (inTurn answer rs' w' t).1 ∧
      R (inTurn answer rs w t).2.1 (inTurn answer rs' w' t).2.1 := by
  induction h generalizing w w' t with
  | nil => exact ⟨.nil, hw⟩
  | @cons r r' rs rs' hr _ ih =>
    obtain ⟨hp, hnext, ht⟩ := (hr w w' hw).run answer t
    have rest := ih hnext ((r w).run answer t).2.2
    rw [inTurn, inTurn]
    simp only
    rw [ht] at rest ⊢
    exact ⟨.cons hp rest.1, rest.2⟩

theorem agree_now : (now : Request ε Instant).Agree World.Alike (Both (· = ·)) now :=
  agree_act fun _ _ h => ⟨by rw [h.eq_rest], h.store, by rw [h.eq_rest]⟩

theorem agree_count (c : Counter) :
    (count c : Request ε Unit).Agree World.Alike (Both (· = ·)) (count c) :=
  agree_act fun _ _ h => ⟨rfl, h.store, by rw [h.eq_rest]⟩

theorem agree_access {p : Except δ α → Except δ β → Prop} {f : Store → Except δ α × Store}
    {f' : Store → Except δ β × Store}
    (h : ∀ s s', s.Alike s' → p (f s).1 (f' s').1 ∧ (f s).2.Alike (f' s').2) :
    (access f : Request ε _).Agree World.Alike (Both p) (access f') :=
  agree_act fun w w' hw => by
    obtain ⟨hp, hs⟩ := h w.store w'.store hw.store
    refine ⟨hp, hs, ?_⟩
    rw [hw.eq_rest]

theorem agree_read {p : α → β → Prop} {f : Store → Except StoreError α × Store}
    {f' : Store → Except StoreError β × Store}
    (h : ∀ s s', s.Alike s' → Both p (f s).1 (f' s').1 ∧ (f s).2.Alike (f' s').2) :
    (read f).Agree World.Alike (Both p) (read f') :=
  (agree_access h).bind .error fun _ _ hr => agree_ofExcept (hr.mapError ServiceError.ofStore)

theorem agree_write {p : α → β → Prop} {f : Store → Instant → Except StoreError α × Store}
    {f' : Store → Instant → Except StoreError β × Store}
    (h : ∀ s s' t, s.Alike s' → Both p (f s t).1 (f' s' t).1 ∧ (f s t).2.Alike (f' s' t).2) :
    (write f).Agree World.Alike (Both p) (write f') :=
  agree_now.bind .error fun t _ same => same ▸ agree_read fun s s' hs => h s s' t hs

end Request

/-- The links of the artefacts are empty. -/
def Output.Bare (o : Output) : Prop :=
  ∀ f a, o.downloads.get? f = some a → a.publicLink = "" ∧ a.privateLink = ""

theorem Output.bare_redacted (o : Output) : o.redacted.Bare := by
  rintro (_ | _) a h
  all_goals
    obtain ⟨stored, -, rfl⟩ := Option.map_eq_some_iff.mp h
    exact ⟨rfl, rfl⟩

namespace Outputs

/-- Nothing but bare outputs are shown, the same ones in both worlds. -/
def Shows (o o' : Output) : Prop := o = o' ∧ o.Bare

variable {caller : Caller}

/-- What is shown to who is not the download service does not depend on the links. -/
theorem shows_present (h : caller.downloadService = false) {o o' : Output} (alike : o.Alike o') :
    Shows (present o caller) (present o' caller) := by
  rw [present, present, h]
  exact ⟨alike.redacted, o.bare_redacted⟩

theorem agree_get (h : caller.downloadService = false) (id : String) :
    (get id caller).Agree World.Alike (Both Shows) (get id caller) := by
  refine (Request.agree_read fun _ _ hs => hs.getOutput id).bind .error fun o o' alike => ?_
  rw [alike.isPublished]
  split
  · exact Request.agree_fail (.error _)
  · exact Request.agree_pure (.ok (shows_present h alike))

theorem agree_update (h : caller.downloadService = false) (settings : Settings) (id : String)
    (u : OutputUpdate) : (update settings id u caller).Agree World.Alike (Both Shows)
      (update settings id u caller) := by
  unfold update
  split
  · exact Request.agree_fail (.error _)
  · refine Request.agree_now.bind .error fun t t' ht => ?_
    subst ht
    refine (Request.agree_access fun s s' hs => hs.modifyOutput t id ServiceError.ofStore
      (u.apply settings.downloadUrl t) fun o o' alike =>
        u.apply_alike settings.downloadUrl t alike).bind .error fun r r' hr => ?_
    refine (Request.agree_ofExcept hr).bind .error fun p p' hp => ?_
    obtain ⟨o, completed⟩ := p
    obtain ⟨o', completed'⟩ := p'
    obtain ⟨alike, rfl⟩ : o.Alike o' ∧ completed = completed' := hp
    simp only
    split
    · exact (Request.agree_count _).bind .error fun _ _ _ =>
        Request.agree_pure (.ok (shows_present h alike))
    · exact Request.agree_pure (.ok (shows_present h alike))

theorem agree_addEvent (id : String) (r : EventRequest) :
    (addEvent id r caller).Agree World.Alike (Both (· = ·)) (addEvent id r caller) := by
  unfold addEvent
  split
  · exact Request.agree_fail (.error _)
  · refine (Request.agree_ofExcept (.refl _)).bind .error fun e e' he => ?_
    subst he
    refine (Request.agree_write fun s s' t hs => hs.addOutputEvent t id e).bind .error
      fun _ _ _ => Request.agree_pure (.ok rfl)

end Outputs

namespace Call

variable (c : Call)

theorem agree_withOutput (o : Output) :
    (c.withOutput o).Agree World.Alike (Both (· = ·)) (c.withOutput o) := by
  rw [withOutput, Api.tagged]
  split
  · exact Request.agree_pure (.ok rfl)
  · exact Request.agree_fail (.error _)

theorem agree_body : c.body.Agree World.Alike (Both (· = ·)) c.body := by
  rw [body, Api.body]
  split
  · exact Request.agree_fail (.error _)
  · exact Request.agree_pure (.ok rfl)

theorem agree_requireKnown : c.requireKnown.Agree World.Alike (Both (· = ·)) c.requireKnown := by
  rw [requireKnown]
  split
  · exact Request.agree_pure (.ok rfl)
  · exact (Request.agree_fail (.error _)).mapError _

theorem agree_parse (text : Octets) (read : Json → Option α) :
    (parse text read).Agree World.Alike (Both (· = ·)) (parse text read) := by
  rw [parse]
  split
  · exact Request.agree_pure (.ok rfl)
  · exact Request.agree_fail (.error _)

theorem agree_getOutput (h : c.caller.downloadService = false) (id : String) :
    (c.getOutput id).Agree World.Alike (Both (· = ·)) (c.getOutput id) := by
  refine ((Outputs.agree_get h id).mapError _).bind .error fun o o' shown => ?_
  rw [← shown.1]
  exact c.agree_withOutput o

/-- Updating an output over HTTP gets the same response in both worlds. -/
theorem agree_updateOutput (h : c.caller.downloadService = false) (id : String) :
    (c.updateOutput id).Agree World.Alike (Both (· = ·)) (c.updateOutput id) := by
  refine c.agree_body.bind .error fun text _ same => ?_
  subst same
  refine c.agree_requireKnown.bind .error fun _ _ _ => ?_
  refine (agree_parse text _).bind .error fun u _ same => ?_
  subst same
  refine ((Outputs.agree_update h c.config.settings id u).mapError _).bind .error
    fun o o' shown => ?_
  rw [← shown.1]
  exact c.agree_withOutput o

theorem agree_addEvent (id : String) :
    (c.addEvent id).Agree World.Alike (Both (· = ·)) (c.addEvent id) := by
  refine c.agree_body.bind .error fun text _ same => ?_
  subst same
  refine c.agree_requireKnown.bind .error fun _ _ _ => ?_
  refine (agree_parse text _).bind .error fun e _ same => ?_
  subst same
  exact ((Outputs.agree_addEvent id e).mapError _).bind .error fun _ _ _ =>
    Request.agree_pure (.ok rfl)

end Call

/-- Whether a call is about an output. -/
def ServiceCall.onOutput : ServiceCall → Bool
  | output .. | updateOutput .. | addEvent .. => true
  | _ => false

/-- Whether a route leads to an output. -/
def Route.onOutput : Route α → Bool
  | output .. | events .. => true
  | _ => false

/-- The answers are the same, and show nothing but bare outputs. -/
def Answer.Shows (a a' : Answer) : Prop := a = a' ∧ ∀ o, a = .output o → o.Bare

theorem ServiceCall.agree_request {caller : Caller} (h : caller.downloadService = false)
    (settings : Settings) {call : ServiceCall} (on : call.onOutput = true) :
    (call.request settings caller).Agree World.Alike (Both Answer.Shows)
      (call.request settings caller) := by
  have shown (o o' : Output) (h : Outputs.Shows o o') :
      (pure (.output o) : Request ServiceError Answer).Agree World.Alike (Both Answer.Shows)
        (pure (.output o')) := by
    obtain ⟨rfl, bare⟩ := h
    refine Request.agree_pure (.ok ⟨rfl, ?_⟩)
    rintro _ ⟨⟩
    exact bare
  cases call with
  | output id => exact (Outputs.agree_get h id).bind .error shown
  | updateOutput id u => exact (Outputs.agree_update h settings id u).bind .error shown
  | addEvent id r =>
    exact (Outputs.agree_addEvent id r).bind .error fun _ _ _ =>
      Request.agree_pure (.ok ⟨rfl, by simp⟩)
  | _ => contradiction

theorem Call.agree_answer (c : Call) (h : c.caller.downloadService = false) {route : Route String}
    (on : route.onOutput = true) (m : Method) :
    (c.answer route m).Agree World.Alike (Both (· = ·)) (c.answer route m) := by
  cases route with
  | output id =>
    cases m with
    | get => exact c.agree_getOutput h id
    | put => exact c.agree_updateOutput h id
    | _ => exact Request.agree_pure (.ok rfl)
  | events id =>
    cases m with
    | post => exact c.agree_addEvent id
    | _ => exact Request.agree_pure (.ok rfl)
  | _ => contradiction

theorem eq_of_forall₂_both {rs rs' : List (Except ε α)}
    (h : List.Forall₂ (Both (· = ·)) rs rs') : rs = rs' := by
  induction h with
  | nil => rfl
  | cons hr _ ih =>
    cases hr with
    | error e => rw [ih]
    | ok ha => rw [ha, ih]

/-- Whoever is not the download service cannot tell from any sequence of calls what the links of
outputs are, be it from what the services give or from the responses with their tags, is shown no links,
and leaves worlds that differ in nothing else. -/
theorem Outputs.redaction_leaks_nothing (settings : Settings)
    (answer : (q : Query) → World → σ → q.Reply × World × σ) (t : σ) {w w' : World}
    (alike : w.Alike w') :
    (∀ calls : List (Caller × ServiceCall),
      (∀ p ∈ calls, p.1.downloadService = false ∧ p.2.onOutput = true) →
      let requests := calls.map fun p => p.2.request settings p.1
      (Request.inTurn answer requests w t).1 = (Request.inTurn answer requests w' t).1 ∧
      (∀ o, .ok (.output o) ∈ (Request.inTurn answer requests w t).1 → o.Bare) ∧
      (Request.inTurn answer requests w t).2.1.Alike (Request.inTurn answer requests w' t).2.1) ∧
    ∀ calls : List (Call × Route String × Method),
      (∀ p ∈ calls, p.1.caller.downloadService = false ∧ p.2.1.onOutput = true) →
      let requests := calls.map fun p => p.1.answer p.2.1 p.2.2
      (Request.inTurn answer requests w t).1 = (Request.inTurn answer requests w' t).1 ∧
      (Request.inTurn answer requests w t).2.1.Alike (Request.inTurn answer requests w' t).2.1 := by
  constructor
  · intro calls hcalls requests
    have agree : List.Forall₂ (Request.Agree World.Alike (Both Answer.Shows)) requests requests := by
      rw [List.forall₂_same, List.forall_mem_map]
      exact fun p hp => ServiceCall.agree_request (hcalls p hp).1 settings (hcalls p hp).2
    obtain ⟨results, worlds⟩ := Request.agree_inTurn agree answer alike t
    have same := eq_of_forall₂_both (results.imp fun _ _ h => h.mono fun _ _ shown => shown.1)
    refine ⟨same, fun o ho => ?_, worlds⟩
    rw [← same, List.forall₂_same] at results
    cases results _ ho with
    | ok shown => exact shown.2 o rfl
  · intro calls hcalls requests
    have agree : List.Forall₂ (Request.Agree World.Alike (Both (· = ·))) requests requests := by
      rw [List.forall₂_same, List.forall_mem_map]
      exact fun p hp => p.1.agree_answer (hcalls p hp).1 (hcalls p hp).2 p.2.2
    obtain ⟨results, worlds⟩ := Request.agree_inTurn agree answer alike t
    exact ⟨eq_of_forall₂_both results, worlds⟩

namespace Small

/-- A world with one output, whose artefact has a private link. -/
def linked (link : String) : World :=
  { world with store := { backend := { outputs := [("o", (delivery link).encode)] } } }

/-- Somebody known reads the output, replaces its private link, records an event, and reads it. -/
def visits : List (Caller × ServiceCall) :=
  [(known, .output "o"),
   (known, .updateOutput "o" { downloads := some { csv := some { privateLink := some "s3://c" } } }),
   (known, .addEvent "o" ⟨some "FilterOutputQueryStart", some ⟨1, 0, by decide, by decide⟩⟩),
   (known, .output "o")]

theorem linked_alike : (linked "s3://a").Alike (linked "s3://b") := by
  have links : (delivery "s3://a").Alike (delivery "s3://b") := by
    refine ⟨rfl, fun f => ?_⟩
    cases f with
    | csv => exact .some ⟨rfl, by decide⟩
    | xls => exact .none
  exact ⟨⟨.cons ⟨rfl, .encode links⟩ .nil, rfl⟩, rfl⟩

theorem visits_learn_nothing :
    let requests := visits.map fun p => p.2.request settings p.1
    let answer := fun (q : Query) (w : World) (t : Unit) => (reply q, w, t)
    (Request.inTurn answer requests (linked "s3://a") ()).1 =
      (Request.inTurn answer requests (linked "s3://b") ()).1 := by
  intro requests answer
  have leaks := (Outputs.redaction_leaks_nothing settings answer () linked_alike).1
  exact (leaks visits (by decide)).1

end Small
end DatasetFilters
