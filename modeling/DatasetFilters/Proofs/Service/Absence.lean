import DatasetFilters.Proofs.Service.Atomicity

namespace DatasetFilters

/-- Calls that read a blueprint get it first, by the rule of visibility. -/
theorem ServiceCall.exists_reading (settings : Settings) (caller : Caller) {call : ServiceCall}
    {id : String} {selector : Selector} (reads : call.reads = true)
    (target : call.target? = some (id, selector)) :
    ∃ goOn : Blueprint → Request ServiceError Answer,
      call.request settings caller = Blueprints.get id selector caller >>= goOn := by
  cases call with
  | output => cases target
  | get => cases target; exact ⟨_, rfl⟩
  | dimensions => cases target; exact ⟨_, bind_assoc ..⟩
  | dimension => cases target; exact ⟨_, bind_assoc ..⟩
  | options =>
    cases target
    simp only [request, Selections.options, Selections.get, bind_assoc]
    exact ⟨_, rfl⟩
  | option =>
    cases target
    simp only [request, Selections.option, Selections.get, bind_assoc]
    exact ⟨_, rfl⟩
  | _ => simp [ServiceCall.reads] at reads

section

variable {answer : (q : Query) → World → σ → q.Reply × World × σ} {t : σ} {w : World} {id : String}
  {selector : Selector} {caller : Caller}

variable (answer t w id) in
/-- What is stored under an id, if anything is, is not public, and the catalog answers that it has no
such dataset version, or none that is public. -/
def World.Hides : Prop :=
  ∀ b, w.store.filter? id = some b → b.isPublished = false ∧
    ∃ e : CatalogError, (answer (.version b.dataset false) { w with store := w.store.touched } t).1 =
      (Except.error e : CatalogReply Version) ∧ e.isNotFound = true

variable (w id selector) in
/-- Whether a selector accepts the tag that is stored under an id, if there is one. -/
def World.accepts : Bool := (w.store.filter? id).all fun b => selector.accepts b.etag

variable (w id selector) in
/-- What a reader is told who may see nothing of what is stored. -/
def World.denial : ServiceError :=
  match w.store.backend.failure? .get .filters with
  | some error => .ofStore error
  | none => if w.accepts id selector then .filterNotFound id else .conflict id

theorem World.hides_of_absent (absent : w.store.filter? id = none) : w.Hides answer t id := by
  intro b stored
  simp [absent] at stored

/-- A reader who may see nothing is told whether the tag is the stored one, and no more. -/
theorem World.denial_eq_iff {bare : World} (absent : bare.store.filter? id = none)
    (same : bare.store.backend.failure? .get .filters = w.store.backend.failure? .get .filters) :
    w.denial id selector = bare.denial id selector ↔
      (w.store.backend.failure? .get .filters).isSome = true ∨ w.accepts id selector = true := by
  have free : bare.accepts id selector = true := by rw [World.accepts, absent, Option.all_none]
  unfold World.denial
  rw [same, free]
  cases w.store.backend.failure? .get .filters with
  | some error => simp
  | none => cases w.accepts id selector <;> simp

namespace Blueprints

/-- Publishing fails as for a missing blueprint where the catalog knows no such version. -/
theorem run_promote_of_isNotFound {b : Blueprint} {e : CatalogError}
    (replied : (answer (.version b.dataset false) w t).1 = (Except.error e : CatalogReply Version))
    (unknown : e.isNotFound = true) : ∃ w' t',
      ((promote b) w).run answer t = (.error (.filterNotFound b.id), w', t') := by
  rcases asked : answer (.version b.dataset false) w t with ⟨reply, w₁, t₁⟩
  rw [asked] at replied
  obtain rfl : reply = (Except.error e : CatalogReply Version) := replied
  have asks : ((Request.ask (.version b.dataset false) : Request ServiceError _) w).run answer t =
      (.ok (Except.error e : CatalogReply Version), w₁, t₁) := by rw [Request.run_ask, asked]
  have ran : ((promote b) w).run answer t = _ := Request.run_bind asks _
  rw [ran]
  simp only [unknown, if_true]
  exact ⟨w₁, t₁, rfl⟩

/-- Getting what is hidden is denied. -/
theorem run_get_of_hides (selector : Selector) (sound : w.store.Sound) (hides : w.Hides answer t id)
    (anonymous : caller.authenticated = false) : ∃ w' t',
      ((get id selector caller) w).run answer t = (.error (w.denial id selector), w', t') := by
  have got := Store.getFilter_eq sound id selector
  have refused {error : StoreError}
      (h : w.store.getFilter id selector = (.error error, w.store.touched)) : ∃ w' t',
      ((get id selector caller) w).run answer t = (.error (.ofStore error), w', t') :=
    ⟨_, _, Request.run_bind_of_error
      (Request.run_read_of_error answer t (f := (·.getFilter id selector)) h) _⟩
  unfold World.denial
  cases failed : w.store.backend.failure? .get .filters with
  | some error =>
    rw [failed] at got
    exact refused got
  | none =>
    rw [failed] at got
    cases stored : w.store.filter? id with
    | none =>
      rw [stored] at got
      simp only [World.accepts, stored, Option.all_none, if_true]
      exact refused got
    | some b =>
      rw [stored] at got
      simp only [World.accepts, stored, Option.all_some]
      by_cases accepted : selector.accepts b.etag = true
      · -- the tag is right, so the rule of visibility decides
        simp only [if_pos accepted] at got ⊢
        have reads := Request.run_read answer t (f := (·.getFilter id selector)) got
        obtain ⟨unpublished, e, replied, unknown⟩ := hides b stored
        obtain ⟨w', t', promotes⟩ := run_promote_of_isNotFound replied unknown
        rw [sound.id_eq stored] at promotes
        refine ⟨w', t', (Request.run_bind reads _).trans ?_⟩
        simp only [unpublished, anonymous, Bool.or_self, Bool.false_eq_true, if_false]
        exact promotes
      · simp only [if_neg accepted] at got ⊢
        exact refused got

end Blueprints

/-- Whatever reads a hidden blueprint is told what `World.denial` says, and no more. -/
theorem ServiceCall.run_request_of_hides (settings : Settings) {call : ServiceCall}
    (reads : call.reads = true) (target : call.target? = some (id, selector))
    (sound : w.store.Sound) (hides : w.Hides answer t id)
    (anonymous : caller.authenticated = false) :
    ((call.request settings caller w).run answer t).1 = .error (w.denial id selector) := by
  obtain ⟨goOn, same⟩ := ServiceCall.exists_reading settings caller reads target
  obtain ⟨w', t', got⟩ := Blueprints.run_get_of_hides selector sound hides anonymous
  rw [same, Request.run_bind_of_error got]

/-- In every state that a run comes to, an anonymous caller who reads a hidden blueprint is denied it,
by whatever call and selector, and whoever else is at work while the catalog is asked. It is told what
it would be told had there never been anything under the id, but for one case: that it named a tag which
is not the stored one. -/
theorem Run.hidden_shows_in_conflicts {settings : Settings}
    {answers : Nat → (q : Query) → q.Reply → Prop} {start : World} {past : List Moment} {s : Server}
    (sound : start.store.Sound) (run : Run settings answers start past s) (call : ServiceCall)
    (reads : call.reads = true) (target : call.target? = some (id, selector))
    (anonymous : caller.authenticated = false) (hides : s.world.Hides answer t id) :
    ((call.request settings caller s.world).run answer t).1 =
        .error (s.world.denial id selector) ∧
      ∀ bare : World, bare.store.Sound → bare.store.filter? id = none →
        bare.store.backend.failure? .get .filters =
          s.world.store.backend.failure? .get .filters →
        (((call.request settings caller s.world).run answer t).1 =
            ((call.request settings caller bare).run answer t).1 ↔
          (s.world.store.backend.failure? .get .filters).isSome = true ∨
            s.world.accepts id selector = true) := by
  obtain ⟨here, -⟩ := run.struck sound
  have denied := ServiceCall.run_request_of_hides settings reads target here hides anonymous
  refine ⟨denied, fun bare hbare absent same => ?_⟩
  have hides' : bare.Hides answer t id := World.hides_of_absent absent
  have denied' := ServiceCall.run_request_of_hides settings reads target hbare hides' anonymous
  rw [denied, denied', Except.error.injEq]
  exact World.denial_eq_iff absent same

end

namespace Small

theorem blank_hidden (t : Unit) :
    (storing blank).Hides (fun q w (t : Unit) => (reply q, w, t)) t "f" := by
  intro b stored
  obtain rfl := Option.some.inj (stored.symm.trans (storing_stores blank))
  exact ⟨rfl, _, rfl, rfl⟩

/-- With the wrong tag the blank blueprint shows, without one it does not. -/
theorem blank_shows_in_conflict :
    ((ServiceCall.request settings .anonymous (.option "f" "age" "27" (.exact "stale"))
      (storing blank)).run (fun q w (t : Unit) => (reply q, w, t)) ()).1 =
        .error (.conflict "f") ∧
    ((ServiceCall.request settings .anonymous (.option "f" "age" "27" .any)
      (storing blank)).run (fun q w (t : Unit) => (reply q, w, t)) ()).1 =
        .error (.filterNotFound "f") := by
  have tag : blank.etag = blank.tag := by decide +kernel
  have run : Run settings answers (storing blank) [] ⟨storing blank, []⟩ := .start
  have stored : (storing blank).store.filter? "f" = some blank := storing_stores blank
  have anonymous : Caller.anonymous.authenticated = false := rfl
  obtain ⟨mismatched, -⟩ := run.hidden_shows_in_conflicts (storing_sound tag)
    (.option "f" "age" "27" (.exact "stale")) rfl rfl anonymous (blank_hidden ())
  obtain ⟨matched, -⟩ := run.hidden_shows_in_conflicts (storing_sound tag)
    (.option "f" "age" "27" .any) rfl rfl anonymous (blank_hidden ())
  have refuses : World.accepts (storing blank) "f" (.exact "stale") = false := by
    rw [World.accepts, stored]
    decide
  have accepts : World.accepts (storing blank) "f" .any = true := by
    rw [World.accepts, stored]
    rfl
  have works : (storing blank).store.backend.failure? .get .filters = none := rfl
  rw [mismatched, matched]
  simp [World.denial, works, refuses, accepts]

end Small

end DatasetFilters
