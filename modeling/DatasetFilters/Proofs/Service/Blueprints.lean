import DatasetFilters.Proofs.Service.Conduct

namespace DatasetFilters

variable {settings : Settings} {answers : Nat → (q : Query) → q.Reply → Prop}
  {documents : Blueprint → Prop} {me : Client} {past : List Moment}

theorem Client.cleared_of_looks (looks : me.call.looks = true) :
    me.Cleared settings answers past := by
  intro id u andSubmit selector hcall
  simp [hcall, ServiceCall.looks] at looks

theorem Client.cleared_of_new (new : me.call.target? = none) : me.Cleared settings answers past := by
  intro id u andSubmit selector hcall
  simp [hcall, ServiceCall.target?] at new

namespace Blueprints

/-- A blueprint is moved to a version that the catalog told about, with dimensions that it
confirmed. -/
theorem keeps_moveTo (b : Blueprint) (version : UInt32) :
    (moveTo settings b version me.caller).Keeps (.ofServices settings answers documents) me past
      fun (change : BlueprintChange) past => b.isSubmitted = false ∧ ∃ found,
        change = { dataset := some (b.dataset.withVersion version)
                   instanceId := some found.instanceId
                   published := some found.isPublished } ∧
        me.Heard answers past (.version (b.dataset.withVersion version) me.caller.authenticated)
          (.ok found) ∧
        ∀ d ∈ b.dimensions,
          Confirmed settings answers me past (b.dataset.withVersion version) d.name d.options := by
  refine Request.keeps_ite (fun _ => Request.keeps_fail _) fun unsubmitted => ?_
  rw [Bool.not_eq_true] at unsubmitted
  refine (Request.keeps_ask _).bind ?_
  intro reply past₁ _ heard
  refine (Request.keeps_answered reply).bind ?_
  intro found past₂ hs₂ same
  obtain rfl := same
  refine (Validation.keeps_dimensions _ b.dimensions).bind ?_
  intro _ past₃ hs₃ confirmed
  exact Request.keeps_pure ⟨unsubmitted, found, rfl, (heard.mono hs₂).mono hs₃, confirmed⟩

end Blueprints

variable (hash : Sha256.Separates fun m => ∃ b, documents b ∧ m = b.content)
include hash

namespace Blueprints

/-- An output is made of what the client has, and then the blueprint is marked with it. -/
theorem keeps_submit {b : Blueprint} (busy : me.call.looks = false)
    (submits : me.call.submits = true) (cleared : me.Cleared settings answers past)
    (has : me.Has settings answers past b) :
    (submit b).Keeps (.ofServices settings answers documents) me past fun _ _ => True := by
  refine Request.keeps_ite (fun _ => Request.keeps_fail _) fun editable => ?_
  rw [Bool.not_eq_true] at editable
  refine Request.keeps_now.bind ?_
  intro time past₁ hs₁ _
  refine Request.keeps_drawId.bind ?_
  intro outputId past₂ hs₂ _
  have stores : (Request.write fun s t => s.addOutput t (.ofBlueprint outputId b time)).Keeps
      (.ofServices settings answers documents) me past₂
      fun _ past => me.Made settings answers past b outputId time := by
    refine Request.keeps_write ?_
    intro t past' hs
    have grown := hs₁.trans (hs₂.trans hs)
    exact Request.keeps_addOutput busy (cleared.mono grown) submits (has.mono grown).took
      outputId time t
  refine stores.bind ?_
  intro _ past₃ hs₃ made
  have grown := hs₁.trans (hs₂.trans hs₃)
  have marks : (Request.write fun s t => s.updateFilter t b.id
      { state := some .submitted, outputId := some outputId, events := [⟨.created, time⟩] }
      (.exact b.etag)).Keeps (.ofServices settings answers documents) me past₃ fun c past =>
        me.Took past (me.Changes settings answers) c ∧ c.isSubmitted = true ∧
          c.outputId = some outputId := by
    refine Request.keeps_write ?_
    intro t past₄ hs₄
    obtain ⟨⟨a, saw, follows, sees, hid, htag, state⟩, -⟩ := has.mono (grown.trans hs₄)
    have justified : Justified settings answers me past₄ a (.change (.submission outputId time)) :=
      .submission (state.trans editable) ⟨hid.symm, htag.symm⟩ (made.mono hs₄)
    rw [← hid, ← htag]
    refine (Request.keeps_modify hash saw follows sees (cleared.mono (grown.trans hs₄)) justified
      t).weaken ?_
    intro r past₅ _ written c hc
    have outcome := written.2 c hc
    exact ⟨outcome.took saw justified, outcome.submitted⟩
  refine marks.bind ?_
  intro submitted past₄ hs₄ marked
  obtain ⟨took, submitted, named⟩ := marked
  refine (Request.keeps_count _).bind ?_
  intro _ past₅ hs₅ _
  have told := hs₄.trans hs₅
  refine (Request.keeps_enqueue busy (cleared.mono (grown.trans told)) submits
    ⟨b, time, made.mono told⟩ (took.mono hs₅) submitted named).bind ?_
  intro sent past₆ _ _
  cases sent with
  | ok u => exact Request.keeps_pure trivial
  | error e => exact (Request.keeps_count _).bind fun _ _ _ _ => Request.keeps_pure trivial

/-- Making public what was read. The client gets it as it then is, or else what others left there
meanwhile, if that is public. -/
theorem keeps_promote {b : Blueprint} {selector : Selector} (looks : me.call.looks = true)
    (hcall : me.call.target? = some (b.id, selector)) (hacc : selector.accepts b.etag = true)
    (anonymous : me.caller.authenticated = false) (hidden : b.isPublished = false)
    (saw : me.Saw past b) :
    (promote b).Keeps (.ofServices settings answers documents) me past fun c past' =>
      c.id = b.id ∧ me.Holds answers past' b.id c.etag c.dataset := by
  have cleared {past' : List Moment} : me.Cleared settings answers past' :=
    Client.cleared_of_looks looks
  have follows := saw.follows hcall hacc
  have accepts := Client.accepts_of_target hcall hacc
  refine (Request.keeps_ask _).bind ?_
  intro reply past₁ hs₁ heard
  cases reply with
  | error e =>
    exact Request.keeps_ite (fun _ => Request.keeps_fail _) fun _ => Request.keeps_fail _
  | ok version =>
    refine Request.keeps_now.bind ?_
    intro t past₂ hs₂ _
    have saw₂ := (saw.mono hs₁).mono hs₂
    have told : Told answers me past₂ b := ⟨version, heard.mono hs₂⟩
    refine (Request.keeps_modify hash saw₂ ((follows.mono hs₁).mono hs₂)
      (fun _ => Or.inr (Or.inr told)) cleared (.promotion told) t).bind ?_
    intro written past₃ hs₃ result
    obtain ⟨hconflict, hok⟩ := result
    cases written with
    | ok c =>
      have outcome := hok c rfl
      obtain ⟨dataset, holds, hdataset⟩ := outcome.holds
      refine Request.keeps_pure ⟨outcome.id_eq, ?_⟩
      rw [outcome.dataset_eq FilterEdit.stays_promotion, ← hdataset FilterEdit.stays_promotion]
      exact holds
    | error e =>
      cases e with
      | conflict key =>
        obtain ⟨m, hm, hmover, found⟩ := hconflict key rfl
        refine (Request.keeps_getFilter b.id .any).bind ?_
        intro read past₄ hs₄ hread
        cases read with
        | ok current =>
          obtain ⟨sawc, hid, -⟩ := hread current rfl
          refine Request.keeps_ite ?_ fun _ => Request.keeps_fail _
          intro published
          -- the client did not get what it had read under its condition
          have overtaken : me.Overtaken past₄ current :=
            ⟨anonymous, looks, published, b, (saw₂.mono hs₃).mono hs₄, hid.symm, accepts, hidden, m,
              hs₄.mem hm, hmover, found⟩
          have goesOn : me.Follows past₄ current := by
            refine ⟨fun id selector' h => ?_, Or.inr (Or.inr overtaken)⟩
            rw [hid]
            exact follows.addressed id selector' h
          exact Request.keeps_pure
            ⟨hid, current, sawc, goesOn, fun _ => Or.inl published, hid, rfl, rfl⟩
        | error e => cases e <;> exact Request.keeps_fail _
      | _ => exact Request.keeps_fail _

/-- What a client reads by the rule of visibility it may follow up. -/
theorem keeps_get {id : String} {selector : Selector} (looks : me.call.looks = true)
    (hcall : me.call.target? = some (id, selector)) :
    (get id selector me.caller).Keeps (.ofServices settings answers documents) me past
      fun b past' => b.id = id ∧ me.Holds answers past' id b.etag b.dataset := by
  refine (Request.keeps_read (Request.keeps_getFilter id selector)).bind ?_
  intro b past₁ _ reads
  obtain ⟨saw, rfl, hacc⟩ := reads
  refine Request.keeps_ite ?_ ?_
  · intro visible
    refine Request.keeps_pure ⟨rfl, b, saw, saw.follows hcall hacc, ?_, rfl, rfl, rfl⟩
    intro _
    rcases Bool.or_eq_true_iff.mp visible with h | h
    · exact Or.inl h
    · exact Or.inr (Or.inl h)
  · intro hidden
    rw [Bool.not_eq_true, Bool.or_eq_false_iff] at hidden
    exact keeps_promote hash looks hcall hacc hidden.2 hidden.1 saw

/-- What is created was confirmed before. -/
theorem keeps_create (r : NewBlueprint) {andSubmit : Bool} (busy : me.call.looks = false)
    (new : me.call.target? = none) (submits : me.call.submits = andSubmit) :
    (create settings r andSubmit me.caller).Keeps (.ofServices settings answers documents) me past
      fun _ _ => True := by
  refine (Request.keeps_ask _).bind ?_
  intro reply past₁ _ heard
  refine (Request.keeps_answered reply).bind ?_
  intro version past₂ hs₂ same
  obtain rfl := same
  refine (Request.keeps_ofExcept (p := fun _ _ => True) fun _ _ => trivial).bind ?_
  intro dimensions past₃ hs₃ _
  refine (Validation.keeps_dimensions r.dataset dimensions).bind ?_
  intro _ past₄ hs₄ confirmed
  refine Request.keeps_drawId.bind ?_
  intro id past₅ hs₅ _
  have told := heard.mono (hs₂.trans (hs₃.trans (hs₄.trans hs₅)))
  have stores : (Request.write fun s t => s.addFilter t
      { id, instanceId := version.instanceId, dataset := r.dataset, dimensions, events := [],
        state := .created, published := some version.isPublished, kind := r.kind,
        outputId := none, etag := "", stamp := 0, lastUpdated := t }).Keeps
      (.ofServices settings answers documents) me past₅
      fun b past' => me.Has settings answers past' b :=
    Request.keeps_write fun t _ hs => Request.keeps_addFilter busy new (told.mono hs) rfl
      (fun d hd => (confirmed d hd).mono (hs₅.trans hs)) rfl ⟨rfl, rfl⟩ t
  refine stores.bind ?_
  intro stored past₆ _ has
  refine (Request.keeps_count _).bind ?_
  intro _ past₇ hs₇ _
  refine Request.keeps_ite (fun asked => ?_) fun _ => Request.keeps_pure trivial
  exact keeps_submit hash busy (submits.trans asked) (Client.cleared_of_new new) (has.mono hs₇)

theorem keeps_updated {current : Blueprint} {change : BlueprintChange} {andSubmit : Bool}
    (busy : me.call.looks = false) (asked : me.call.submits = andSubmit)
    (saw : me.Saw past current) (follows : me.Follows past current)
    (cleared : (andSubmit && current.isSubmitted) = false → me.Cleared settings answers past)
    (updates : me.Updates settings answers past current change) :
    (if andSubmit && current.isSubmitted then Request.fail (.alreadySubmitted current.id)
      else if change.isEmpty then
        pure current >>= fun updated => if andSubmit then submit updated else pure updated
      else
        (Request.write fun s t => s.updateFilter t current.id change (.exact current.etag)) >>=
          fun updated => if andSubmit then submit updated else pure updated).Keeps
      (.ofServices settings answers documents) me past
        fun _ past => me.Cleared settings answers past := by
  refine Request.keeps_ite (fun _ => Request.keeps_fail _) fun editable => ?_
  rw [Bool.not_eq_true] at editable
  have cleared := cleared editable
  have sees {past' : List Moment} : me.Sees answers past' current := fun h => by simp [busy] at h
  have submits (updated : Blueprint) (past' : List Moment) (hs : past <:+ past')
      (has : me.Has settings answers past' updated) :
      (if andSubmit then submit updated else pure updated).Keeps
        (.ofServices settings answers documents) me past'
        fun _ past => me.Cleared settings answers past := by
    have cleared' := cleared.mono hs
    refine Request.keeps_ite (fun submitting => ?_) fun _ => Request.keeps_pure cleared'
    exact (keeps_submit hash busy (asked.trans submitting) cleared' has).weaken
      fun _ _ hs _ => cleared'.mono hs
  refine Request.keeps_ite ?_ ?_
  · intro _
    exact submits current past (List.suffix_refl past) (.of_saw saw follows sees)
  · intro _
    have writes : (Request.write fun s t =>
        s.updateFilter t current.id change (.exact current.etag)).Keeps
        (.ofServices settings answers documents) me past
        fun c past' => me.Has settings answers past' c := by
      refine Request.keeps_write ?_
      intro t past' hs
      have updates := updates.mono hs
      refine (Request.keeps_modify hash (saw.mono hs) (follows.mono hs) sees (cleared.mono hs)
        (.update updates) t).weaken ?_
      intro r past'' _ written c hc
      exact (written.2 c hc).has (saw.mono hs) updates
    exact writes.bind fun updated past' hs has => submits updated past' hs has

/-- An update changes nothing and gives nothing away before it has passed. -/
theorem keeps_update {id : String} {u : BlueprintUpdate} {andSubmit : Bool} {selector : Selector}
    (hcall : me.call = .update id u andSubmit selector) :
    (update settings id u andSubmit selector me.caller).Keeps
      (.ofServices settings answers documents) me past
        fun _ past => me.Cleared settings answers past := by
  have busy : me.call.looks = false := by rw [hcall]; rfl
  have target : me.call.target? = some (id, selector) := by rw [hcall]; rfl
  have asked : me.call.submits = andSubmit := by rw [hcall]; rfl
  refine (Request.keeps_read (Request.keeps_getFilter id selector)).bind ?_
  intro current past₁ _ reads
  obtain ⟨saw, rfl, hacc⟩ := reads
  have follows := saw.follows target hacc
  refine Request.keeps_ite (fun _ => Request.keeps_fail _) fun permitted => ?_
  have permitted : u.forbidden current = [] := by simpa using permitted
  refine (Request.keeps_ofExcept (p := fun events _ => u.validEvents = .ok events)
    fun events h => h).bind ?_
  intro events past₂ hs₂ valid
  -- what is left to check is whether the blueprint can be moved
  have passed {past' : List Moment} (hs : past₁ <:+ past')
      (moves : ∀ version, u.newVersion? current = some version → current.isSubmitted = false ∧
        (∃ found, me.Heard answers past'
          (.version (current.dataset.withVersion version) me.caller.authenticated) (.ok found)) ∧
        ∀ d ∈ current.dimensions, Confirmed settings answers me past'
          (current.dataset.withVersion version) d.name d.options)
      (editable : (andSubmit && current.isSubmitted) = false) :
      me.Cleared settings answers past' := by
    intro id' u' andSubmit' selector' hcall'
    rw [hcall] at hcall'
    obtain ⟨rfl, rfl, rfl, rfl⟩ := ServiceCall.update.inj hcall'
    exact ⟨current, saw.mono hs, rfl, hacc, permitted, ⟨events, valid⟩, moves, editable⟩
  cases hversion : u.newVersion? current with
  | some version =>
    refine (keeps_moveTo current version).bind ?_
    intro move past₃ hs₃ moved
    obtain ⟨unsubmitted, found, rfl, heard, confirmed⟩ := moved
    have grown := hs₂.trans hs₃
    refine keeps_updated hash busy asked (saw.mono grown) (follows.mono grown) (passed grown ?_)
      (.move found hcall valid hversion unsubmitted heard confirmed)
    intro version' hversion'
    obtain rfl := Option.some.inj (hversion.symm.trans hversion')
    exact ⟨unsubmitted, ⟨found, heard⟩, confirmed⟩
  | none =>
    exact keeps_updated hash busy asked (saw.mono hs₂) (follows.mono hs₂)
      (passed hs₂ (by simp [hversion])) (.report hcall valid)

end Blueprints
end DatasetFilters
