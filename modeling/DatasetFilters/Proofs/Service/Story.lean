import DatasetFilters.Proofs.Service.Composition
import DatasetFilters.Proofs.Service.Patching
import DatasetFilters.Proofs.Service.Stroke
import Mathlib.Algebra.Ring.Int.Defs

namespace DatasetFilters

/-- The agreements that the counters are to keep. -/
inductive Ledger where
  /-- Blueprints created, with those stored. -/
  | created
  /-- Blueprints submitted, with those stored as submitted. -/
  | submitted
  /-- Blueprints submitted, with messages accepted and failures to dispatch. -/
  | dispatched
  /-- Outputs completed, with those stored as completed. -/
  | completed

/-- What a stroke adds to one side of an agreement, or, if negative, to the other one. -/
def Stroke.weight : Ledger → Stroke → Int
  | .created, creates _ => 1
  | .created, counts .blueprintsCreated => -1
  | .submitted, marks .. => 1
  | .submitted, counts .blueprintsSubmitted => -1
  | .dispatched, sends _ true => 1
  | .dispatched, counts .dispatchFailures => 1
  | .dispatched, counts .blueprintsSubmitted => -1
  | .completed, tends _ _ true => 1
  | .completed, counts .outputsCompleted => -1
  | _, _ => 0

/-- Strokes that leave all agreements as they were. -/
def Balanced (strokes : List Stroke) : Prop := ∀ l, (strokes.map (Stroke.weight l)).sum = 0

theorem Balanced.nil : Balanced [] := fun _ => rfl

theorem Balanced.append {first later : List Stroke} (h : Balanced first) (h' : Balanced later) :
    Balanced (later ++ first) := fun l => by
  rw [List.map_append, List.sum_append, h l, h' l]
  rfl

theorem Balanced.cons {strokes : List Stroke} {stroke : Stroke} (h : Balanced strokes)
    (idle : ∀ l, stroke.weight l = 0) : Balanced (stroke :: strokes) := fun l => by
  rw [List.map_cons, List.sum_cons, idle l, h l]
  rfl

/-- What looking for a blueprint takes: nothing, or making it public for an anonymous caller. -/
def Caller.Looks (caller : Caller) (id : String) (strokes : List Stroke) : Prop :=
  strokes = [] ∨
    caller.authenticated = false ∧ ∃ tag, strokes = [.edits id tag (.change .promotion)]

/-- What revising a blueprint takes: nothing, or an edit. -/
def Revises (id : String) (strokes : List Stroke) : Prop :=
  strokes = [] ∨ ∃ tag c, strokes = [.edits id tag (.change c)]

/-- A submission that succeeded, after other strokes. -/
def Submits (id : String) (base strokes : List Stroke) : Prop :=
  ∃ o tag time, o.filterId = id ∧
    (strokes = [.sends o.id true, .counts .blueprintsSubmitted, .marks id tag o.id time, .makes o] ++
        base ∨
      strokes = [.counts .dispatchFailures, .sends o.id false, .counts .blueprintsSubmitted,
        .marks id tag o.id time, .makes o] ++ base)

/-- A submission that failed, after other strokes. -/
def FailsToSubmit (id : String) (base strokes : List Stroke) : Prop :=
  strokes = base ∨ ∃ o, o.filterId = id ∧ strokes = .makes o :: base

/-- The operations of a patch that were carried out, after other strokes: each was written, if there was
anything to write, and counted. -/
inductive Patches (id : String) (base : List Stroke) : List PatchOperation → List Stroke → Prop
  | start : Patches id base [] base
  | idle {done : List PatchOperation} {strokes : List Stroke} (h : Patches id base done strokes)
      (o : PatchOperation) :
      Patches id base (done ++ [o]) (.counts (.patchOperations o.action) :: strokes)
  | edit {done : List PatchOperation} {strokes : List Stroke} (h : Patches id base done strokes)
      (o : PatchOperation) (tag : String) (e : FilterEdit) :
      Patches id base (done ++ [o])
        (.counts (.patchOperations o.action) :: .edits id tag e :: strokes)

/-- The operations of patches that a reply lists as carried out. -/
def Answer.carriedOut : Answer → List PatchOperation
  | patched operations _ => operations
  | _ => []

def carriedOut : Except ServiceError Answer → List PatchOperation
  | .ok a => a.carriedOut
  | .error e => e.carriedOut

/-- The id of the blueprint that an answer gives. -/
def Answer.blueprintId? : Answer → Option String
  | blueprint b => some b.id
  | _ => none

/-- The strokes of a request that has ended, by its call and its result. -/
def ServiceCall.Ends (caller : Caller) (result : Except ServiceError Answer)
    (strokes : List Stroke) : ServiceCall → Prop
  | create _ andSubmit => match result with
    | .ok a => ∃ b, a.blueprintId? = some b.id ∧
        if andSubmit then Submits b.id [.counts .blueprintsCreated, .creates b] strokes
        else strokes = [.counts .blueprintsCreated, .creates b]
    | .error _ => strokes = [] ∨ andSubmit = true ∧
        ∃ b, FailsToSubmit b.id [.counts .blueprintsCreated, .creates b] strokes
  | update id _ andSubmit _ => match result with
    | .ok _ => ∃ base, Revises id base ∧ if andSubmit then Submits id base strokes else strokes = base
    | .error _ => strokes = [] ∨ andSubmit = true ∧
        ∃ base, Revises id base ∧ FailsToSubmit id base strokes
  | get id _ | dimensions id _ | dimension id _ _ | options id _ _ | option id _ _ _ =>
    caller.Looks id strokes
  | addDimension id _ _ | removeDimension id _ _ | addOption id _ _ _ | removeOption id _ _ _ =>
    caller.Looks id strokes ∨ result.isOk = true ∧
      ∃ base tag e, caller.Looks id base ∧ strokes = .edits id tag e :: base
  | patch id _ _ _ => ∃ base, caller.Looks id base ∧ Patches id base (carriedOut result) strokes
  | output _ => strokes = []
  | updateOutput id u => match result with
    | .ok _ => strokes = [.tends id u false] ∨
        strokes = [.counts .outputsCompleted, .tends id u true]
    | .error _ => strokes = []
  | addEvent id r => match result with
    | .ok _ => ∃ e, r.validate = .ok e ∧ strokes = [.records id e]
    | .error _ => strokes = []

variable (settings : Settings) in
/-- The terms of requests whose moments are told as strokes. -/
def Terms.story (failed : ServiceError → List Moment → Prop) : Terms ServiceError where
  given _ := True
  always own := ∃ strokes, Traced settings own strokes
  asking own := ∃ strokes, Traced settings own strokes ∧ Balanced strokes
  failed := failed

variable (settings : Settings) in
/-- To have made these strokes will do for a question, and for a failure that reports nothing as carried
out. -/
structure Permits (failed : ServiceError → List Moment → Prop) (strokes : List Stroke) : Prop where
  balanced : Balanced strokes
  failed : ∀ e own, e.carriedOut = [] → Traced settings own strokes → failed e own

variable {settings : Settings} {me : Client} {failed : ServiceError → List Moment → Prop}
  {strokes : List Stroke} {own : List Moment} {b : Blueprint}

theorem Permits.steady (permits : Permits settings failed strokes) :
    (Terms.story settings failed).Steady fun own => Traced settings own strokes where
  calm h hm := ⟨⟨⟨_, h.calm hm⟩, ⟨_, h.calm hm, permits.balanced⟩⟩, h.calm hm⟩
  failed plain h := permits.failed _ _ plain h

namespace Traced

theorem act (h : Traced settings own strokes) {f : World → α × World} (stroke : α → Stroke)
    (does : ∀ now, now.store.Sound → (stroke (f now).1).Does settings own now (f now).2) :
    (Request.act f).Accounts (.story settings failed) me own
      fun a own => Traced settings own (stroke a :: strokes) :=
  Request.accounts_action fun now hnow _ => ⟨⟨_, h.next (does now hnow)⟩, h.next (does now hnow)⟩

theorem count (h : Traced settings own strokes) (c : Counter) :
    (Request.count c).Accounts (.story settings failed) me own
      fun _ own => Traced settings own (.counts c :: strokes) :=
  h.act (fun _ => .counts c) fun _ _ => rfl

variable (h : Traced settings own strokes)
include h

/-- An edit on a tag leaves what it makes of the blueprint in the hands of the client. -/
theorem settles_edit {e : FilterEdit} (plain : e.Plain) (t : Instant) (id tag : String) (now : World)
    (hnow : now.store.Sound) : (Terms.story settings failed).Settles me own
      (fun c own => c.id = id ∧ InHand own c ∧ Traced settings own (.edits id tag e :: strokes)) now
      (now.store.modifyFilter t id (.exact tag) e.apply) := by
  rcases Store.modifyFilter_takes hnow t id tag e with
    ⟨error, he⟩ | ⟨c, store, he, hid, takes, kept⟩ <;> rw [he]
  · exact ⟨rfl, rfl⟩
  · intro _
    have next :
        Traced settings (⟨some me, now, { now with store }⟩ :: own) (.edits id tag e :: strokes) :=
      h.next ⟨plain, takes⟩
    obtain ⟨x, stored, same⟩ := kept plain
    exact ⟨⟨_, next⟩, hid, ⟨_, List.mem_cons_self, x, stored, same⟩, next⟩

/-- Whatever a reader gets it has in its hands. -/
theorem settles_getFilter (id : String) (selector : Selector) (now : World) (hnow : now.store.Sound) :
    (Terms.story settings failed).Settles me own
      (fun b own => b.id = id ∧ InHand own b ∧ Traced settings own strokes) now
      (now.store.getFilter id selector) := by
  rcases Store.getFilter_cases hnow id selector with ⟨error, he⟩ | ⟨b, hb, -, he⟩ <;> rw [he]
  · exact ⟨rfl, rfl⟩
  · intro _
    have calm : Traced settings
        (⟨some me, now, { now with store := now.store.touched }⟩ :: own) strokes :=
      h.calm ⟨⟨rfl, rfl, rfl⟩, rfl⟩
    have stored : World.Stores { now with store := now.store.touched } b :=
      (World.stores_of_filters_eq rfl).mpr (World.stores_of_filter? hnow hb)
    exact ⟨⟨_, calm⟩, hnow.id_eq hb, ⟨_, List.mem_cons_self, b, stored, rfl, rfl, rfl⟩, calm⟩

variable (permits : Permits settings failed strokes)
include permits

theorem change {e : FilterEdit} (plain : e.Plain) (id tag : String) :
    (Request.write fun s t => s.modifyFilter t id (.exact tag) e.apply).Accounts
      (.story settings failed) me own
      fun c own => c.id = id ∧ InHand own c ∧ Traced settings own (.edits id tag e :: strokes) :=
  permits.steady.write h fun t _ h now hnow => h.settles_edit plain t id tag now hnow

theorem edit {e : FilterEdit} (plain : e.Plain) (id tag : String) :
    (Request.write fun s t => Store.tagOnly (s.modifyFilter t id (.exact tag) e.apply)).Accounts
      (.story settings failed) me own
      fun _ own => Traced settings own (.edits id tag e :: strokes) := by
  refine permits.steady.write h fun t own h now hnow => ?_
  have settled : (Terms.story settings failed).Settles me own
      (fun c own => c.id = id ∧ InHand own c ∧ Traced settings own (.edits id tag e :: strokes)) now
      (now.store.modifyFilter t id (.exact tag) e.apply) := h.settles_edit plain t id tag now hnow
  generalize now.store.modifyFilter t id (.exact tag) e.apply = ended at settled ⊢
  obtain ⟨r, store⟩ := ended
  cases r with
  | error error => exact settled
  | ok c =>
    intro given
    obtain ⟨always, -, -, next⟩ := settled given
    exact ⟨always, next⟩

theorem getFilter (id : String) (selector : Selector) :
    (Request.read (·.getFilter id selector)).Accounts (.story settings failed) me own
      fun b own => b.id = id ∧ InHand own b ∧ Traced settings own strokes :=
  permits.steady.read h fun now hnow => h.settles_getFilter id selector now hnow

theorem getOutput (id : String) : (Request.read (·.getOutput id)).Accounts (.story settings failed) me
    own fun _ own => Traced settings own strokes := by
  refine permits.steady.read h fun now _ => ?_
  rcases now.store.getOutput_cases id with ⟨error, he⟩ | ⟨o, -, he⟩ <;> rw [he]
  · exact ⟨rfl, rfl⟩
  · exact fun _ => ⟨⟨_, h.calm ⟨⟨rfl, rfl, rfl⟩, rfl⟩⟩, h.calm ⟨⟨rfl, rfl, rfl⟩, rfl⟩⟩

theorem addFilter {b : Instant → Blueprint}
    (blank : ∀ t, (b t).state = .created ∧ (b t).outputId = none) :
    (Request.write fun s t => s.addFilter t (b t)).Accounts (.story settings failed) me own
      fun c own => InHand own c ∧ Traced settings own (.creates c :: strokes) := by
  refine permits.steady.write h fun t own h now hnow => ?_
  rcases Store.addFilter_cases hnow t (b t) with ⟨error, he⟩ | ⟨free, he⟩ <;> rw [he]
  · exact ⟨rfl, rfl⟩
  · intro _
    have next : Traced settings (⟨some me, now, { now with
        store := now.store.keeping t (now.store.stampedFilter t (b t)) }⟩ :: own)
        (.creates (now.store.stampedFilter t (b t)) :: strokes) :=
      h.next ⟨free, rfl, (blank t).1, (blank t).2, t, rfl⟩
    exact ⟨⟨_, next⟩, ⟨_, List.mem_cons_self, _, Store.filter?_keeping_self _ t _, rfl, rfl, rfl⟩, next⟩

theorem addOutput (outputId : String) (b : Blueprint) (time : Instant) :
    (Request.write fun s t => s.addOutput t (.ofBlueprint outputId b time)).Accounts
      (.story settings failed) me own fun _ own => ∃ o, o.id = outputId ∧ o.filterId = b.id ∧
        Rendered own b.id outputId time ∧ Traced settings own (.makes o :: strokes) := by
  refine permits.steady.write h fun t own h now _ => ?_
  rcases now.store.addOutput_cases t (.ofBlueprint outputId b time) with
    ⟨error, he⟩ | ⟨free, he⟩ <;> rw [he]
  · exact ⟨rfl, rfl⟩
  · intro _
    let o := (Output.ofBlueprint outputId b time).stamped (now.store.clock.next t)
    have next : Traced settings (⟨some me, now, { now with
        store := now.store.puttingOutput t outputId o }⟩ :: own) (.makes o :: strokes) :=
      h.next ⟨free, ⟨b, time, _, rfl⟩, t, rfl⟩
    exact ⟨⟨_, next⟩, o, rfl, rfl,
      ⟨_, List.mem_cons_self, o, Store.output?_puttingOutput_self .., rfl, rfl⟩, next⟩

theorem mark {id tag outputId : String} {time : Instant} (unsubmitted : Unsubmitted own id tag)
    (rendered : Rendered own id outputId time) :
    (Request.write fun s t => s.updateFilter t id (.submission outputId time) (.exact tag)).Accounts
      (.story settings failed) me own
      fun c own => c.id = id ∧ Traced settings own (.marks id tag outputId time :: strokes) := by
  have later := fun m own (h : Unsubmitted own id tag ∧ Rendered own id outputId time) =>
    And.intro (h.1.later m own) (h.2.later m own)
  refine ((permits.steady.now h).keeping later ⟨unsubmitted, rendered⟩).bind ?_
  rintro t own₁ ⟨⟨unsubmitted, rendered⟩, h₁⟩
  refine permits.steady.read h₁ fun now hnow => ?_
  simp only [Store.updateFilter_eq_modifyFilter]
  rcases Store.modifyFilter_takes hnow t id tag (.change (.submission outputId time)) with
    ⟨error, he⟩ | ⟨c, store, he, hid, takes, -⟩ <;> rw [he]
  · exact ⟨rfl, rfl⟩
  · intro _
    have next : Traced settings (⟨some me, now, { now with store }⟩ :: own₁)
        (.marks id tag outputId time :: strokes) := h₁.next ⟨unsubmitted, rendered, takes⟩
    exact ⟨⟨_, next⟩, hid, next⟩

end Traced

namespace Blueprints

/-- A submission of a blueprint that the client has in its hands. -/
theorem story_submit (h : Traced settings own strokes) (inHand : InHand own b)
    (permits : Permits settings failed strokes)
    (permits' : ∀ o, o.filterId = b.id → Permits settings failed (.makes o :: strokes)) :
    (submit b).Accounts (.story settings failed) me own
      fun c own => c.id = b.id ∧ ∃ all, Submits b.id strokes all ∧ Traced settings own all := by
  refine Request.accounts_ite (fun _ => permits.steady.fail h rfl) fun submitted => ?_
  have unsubmitted := inHand.unsubmitted (Bool.eq_false_iff.mpr submitted)
  refine ((permits.steady.now h).keeping Unsubmitted.later unsubmitted).bind ?_
  rintro time own₁ ⟨unsubmitted, h₁⟩
  refine ((permits.steady.drawId h₁).keeping Unsubmitted.later unsubmitted).bind ?_
  rintro outputId own₂ ⟨unsubmitted, h₂⟩
  refine ((h₂.addOutput permits outputId b time).keeping Unsubmitted.later unsubmitted).bind ?_
  rintro _ own₃ ⟨unsubmitted, o, rfl, hfilter, rendered, h₃⟩
  refine (h₃.mark (permits' o hfilter) unsubmitted rendered).bind ?_
  rintro c own₄ ⟨hid, h₄⟩
  refine (h₄.count _).bind ?_
  intro _ own₅ h₅
  refine (h₅.act (fun r => .sends o.id r.isOk) fun _ _ => ⟨rfl, rfl⟩).bind ?_
  intro sent own₆ h₆
  cases sent with
  | ok u => exact Request.accounts_pure ⟨hid, _, ⟨o, b.etag, time, hfilter, Or.inl rfl⟩, h₆⟩
  | error e =>
    refine (h₆.count _).bind ?_
    intro _ own₇ h₇
    exact Request.accounts_pure ⟨hid, _, ⟨o, b.etag, time, hfilter, Or.inr rfl⟩, h₇⟩

/-- A request of blueprints that ends with a submission, if it is to. -/
theorem story_submitIf (h : Traced settings own strokes) (inHand : InHand own b) {andSubmit : Bool}
    (permits : andSubmit = true → Permits settings failed strokes ∧
      ∀ o, o.filterId = b.id → Permits settings failed (.makes o :: strokes)) :
    (submitIf andSubmit b).Accounts (.story settings failed) me own fun c own => c.id = b.id ∧
      ∃ all, (if andSubmit then Submits b.id strokes all else all = strokes) ∧
        Traced settings own all := by
  cases andSubmit with
  | true =>
    obtain ⟨permits, permits'⟩ := permits rfl
    exact story_submit h inHand permits permits'
  | false => exact Request.accounts_pure ⟨rfl, strokes, rfl, h⟩

end Blueprints

/-- The terms of a request that is to end as its call does. -/
def Client.Told (settings : Settings) (me : Client) (result : Except ServiceError Answer)
    (own : List Moment) : Prop :=
  ∃ strokes, me.call.Ends me.caller result strokes ∧ Traced settings own strokes

variable (settings me) in
/-- The terms of a request that fails as its call does. -/
abbrev Terms.told : Terms ServiceError := .story settings fun e => me.Told settings (.error e)

theorem Permits.told (balanced : Balanced strokes)
    (ends : ∀ e, e.carriedOut = [] → me.call.Ends me.caller (.error e) strokes) :
    Permits settings (fun e => me.Told settings (.error e)) strokes :=
  ⟨balanced, fun e _ plain h => ⟨strokes, ends e plain, h⟩⟩

theorem balanced_created (b : Blueprint) : Balanced [.counts .blueprintsCreated, .creates b] := by
  intro l
  cases l <;> rfl

theorem Balanced.edits {id tag : String} {e : FilterEdit} (h : Balanced strokes) :
    Balanced (.edits id tag e :: strokes) :=
  h.cons fun l => by cases l <;> rfl

theorem Balanced.makes {o : Output} (h : Balanced strokes) : Balanced (.makes o :: strokes) :=
  h.cons fun l => by cases l <;> rfl

theorem Revises.balanced {id : String} (h : Revises id strokes) : Balanced strokes := by
  rcases h with rfl | ⟨tag, c, rfl⟩
  · exact .nil
  · exact Balanced.nil.edits

namespace Blueprints

theorem story_create {r : NewBlueprint} {andSubmit : Bool} (call : me.call = .create r andSubmit)
    (caller : Caller) : (create settings r andSubmit caller).Accounts (.told settings me) me []
      fun c own => ∃ strokes, (∃ b, c.id = b.id ∧ if andSubmit
          then Submits b.id [.counts .blueprintsCreated, .creates b] strokes
          else strokes = [.counts .blueprintsCreated, .creates b]) ∧ Traced settings own strokes := by
  have nothing : Permits settings (fun e => me.Told settings (.error e)) [] :=
    .told .nil fun e _ => by rw [call]; exact Or.inl rfl
  refine (nothing.steady.ask .start _).bind ?_
  intro reply own₁ h₁
  refine (nothing.steady.answered h₁ reply).bind ?_
  intro version own₂ h₂
  refine (nothing.steady.check h₂ fun _ => carriedOut_normalise).bind ?_
  rintro dimensions own₃ ⟨-, h₃⟩
  refine (nothing.steady.dimensions h₃ settings.limits r.dataset dimensions).bind ?_
  intro _ own₄ h₄
  refine (nothing.steady.drawId h₄).bind ?_
  intro id own₅ h₅
  refine (h₅.addFilter nothing fun _ => ⟨rfl, rfl⟩).bind ?_
  rintro b own₆ ⟨inHand, h₆⟩
  refine ((h₆.count _).keeping InHand.later inHand).bind ?_
  rintro _ own₇ ⟨inHand, h₇⟩
  refine (story_submitIf h₇ inHand fun submits => ⟨?_, fun o ho => ?_⟩).weaken ?_
  · exact .told (balanced_created b) fun e _ => by
      rw [call]; exact Or.inr ⟨submits, b, Or.inl rfl⟩
  · exact .told (balanced_created b).makes fun e _ => by
      rw [call]; exact Or.inr ⟨submits, b, Or.inr ⟨o, ho, rfl⟩⟩
  · rintro c own ⟨hid, all, submits, h⟩
    exact ⟨all, ⟨b, hid, submits⟩, h⟩

/-- Finding out what to change changes nothing. -/
theorem story_revision (h : Traced settings own []) (permits : Permits settings failed [])
    (id : String) (u : BlueprintUpdate) (selector : Selector) (caller : Caller) :
    (revision settings id u selector caller).Accounts (.story settings failed) me own fun p own =>
      p.1.id = id ∧ (p.2.state = none ∧ p.2.outputId = none) ∧ InHand own p.1 ∧
        Traced settings own [] := by
  refine (h.getFilter permits id selector).bind ?_
  rintro current own₁ ⟨hid, inHand, h₁⟩
  refine Request.accounts_ite (fun _ => permits.steady.fail h₁ rfl) fun _ => ?_
  refine ((permits.steady.check h₁ fun _ => u.carriedOut_validEvents).keeping
    InHand.later inHand).bind ?_
  rintro events own₂ ⟨inHand, -, h₂⟩
  cases u.newVersion? current with
  | some version =>
    refine ((permits.steady.moveTo h₂ current version caller).keeping InHand.later inHand).bind ?_
    rintro move own₃ ⟨inHand, plain, h₃⟩
    exact Request.accounts_pure ⟨hid, plain, inHand, h₃⟩
  | none => exact Request.accounts_pure ⟨hid, ⟨rfl, rfl⟩, inHand, h₂⟩

theorem story_revise {id : String} (h : Traced settings own []) (permits : Permits settings failed [])
    (hid : b.id = id) (inHand : InHand own b) {change : BlueprintChange}
    (plain : change.state = none ∧ change.outputId = none) :
    (revise id b change).Accounts (.story settings failed) me own fun c own =>
      c.id = id ∧ InHand own c ∧ ∃ base, Revises id base ∧ Traced settings own base := by
  refine Request.accounts_ite
    (fun _ => Request.accounts_pure ⟨hid, inHand, [], Or.inl rfl, h⟩) fun _ => ?_
  refine (h.change permits (FilterEdit.plain_change plain.1 plain.2) id b.etag).weaken ?_
  rintro c own ⟨hid, inHand, h⟩
  exact ⟨hid, inHand, _, Or.inr ⟨_, _, rfl⟩, h⟩

/-- What an update takes: its edit if there is one, and then the submission. -/
theorem story_update {id : String} {u : BlueprintUpdate} {andSubmit : Bool} {selector : Selector}
    (call : me.call = .update id u andSubmit selector) (caller : Caller) :
    (update settings id u andSubmit selector caller).Accounts (.told settings me) me []
      fun _ own => ∃ strokes, (∃ base, Revises id base ∧
        if andSubmit then Submits id base strokes else strokes = base) ∧
          Traced settings own strokes := by
  have nothing : Permits settings (fun e => me.Told settings (.error e)) [] :=
    .told .nil fun e _ => by rw [call]; exact Or.inl rfl
  rw [update_eq]
  refine (story_revision .start nothing id u selector caller).bind ?_
  rintro ⟨current, change⟩ own₁ ⟨hid, plain, inHand, h₁⟩
  refine Request.accounts_ite (fun _ => nothing.steady.fail h₁ rfl) fun _ => ?_
  refine (story_revise h₁ nothing hid inHand plain).bind ?_
  rintro b own₂ ⟨rfl, inHand, base, revises, h₂⟩
  refine (story_submitIf h₂ inHand fun submits => ⟨?_, fun o ho => ?_⟩).weaken ?_
  · exact .told revises.balanced fun e _ => by
      rw [call]; exact Or.inr ⟨submits, base, revises, Or.inl rfl⟩
  · exact .told revises.balanced.makes fun e _ => by
      rw [call]; exact Or.inr ⟨submits, base, revises, Or.inr ⟨o, ho, rfl⟩⟩
  · rintro _ own ⟨-, all, submits, h⟩
    exact ⟨all, ⟨base, revises, submits⟩, h⟩

end Blueprints

variable (settings) in
/-- A client has looked for a blueprint, and done no more. -/
def Looked (caller : Caller) (id : String) (own : List Moment) : Prop :=
  ∃ strokes, caller.Looks id strokes ∧ Traced settings own strokes

theorem Caller.Looks.balanced {caller : Caller} {id : String} (h : caller.Looks id strokes) :
    Balanced strokes := by
  rcases h with rfl | ⟨-, tag, rfl⟩
  · exact .nil
  · exact Balanced.nil.edits

variable (settings failed) in
/-- To have looked for a blueprint will do. -/
def PermitsLooking (caller : Caller) (id : String) : Prop :=
  ∀ strokes, caller.Looks id strokes → Permits settings failed strokes

theorem PermitsLooking.steady {caller : Caller} {id : String}
    (permits : PermitsLooking settings failed caller id) :
    (Terms.story settings failed).Steady (Looked settings caller id) where
  calm h hm := by
    obtain ⟨strokes, looks, h⟩ := h
    obtain ⟨terms, h⟩ := (permits strokes looks).steady.calm h hm
    exact ⟨terms, strokes, looks, h⟩
  failed plain h := by
    obtain ⟨strokes, looks, h⟩ := h
    exact (permits strokes looks).steady.failed plain h

variable (settings) in
theorem PermitsLooking.told (me : Client) {id : String}
    (ends : ∀ e strokes, e.carriedOut = [] → me.caller.Looks id strokes →
      me.call.Ends me.caller (.error e) strokes) :
    PermitsLooking settings (fun e => me.Told settings (.error e)) me.caller id :=
  fun _ looks => .told looks.balanced fun e plain => ends e _ plain looks

namespace Blueprints

variable {caller : Caller}

/-- Publishing for an anonymous reader: once at most. -/
theorem story_promote (h : Traced settings own [])
    (permits : PermitsLooking settings failed caller b.id) (anonymous : caller.authenticated = false) :
    (promote b).Accounts (.story settings failed) me own
      fun c own => c.id = b.id ∧ Looked settings caller b.id own := by
  have idle : caller.Looks b.id [] := Or.inl rfl
  have steady := (permits [] idle).steady
  refine (steady.ask h _).bind ?_
  intro version own₁ h₁
  cases version with
  | error e =>
    exact Request.accounts_ite (fun _ => steady.fail h₁ rfl)
      fun _ => steady.fail h₁ (ServiceError.carriedOut_ofCatalog e)
  | ok version =>
    refine (steady.now h₁).bind ?_
    intro t own₂ h₂
    refine (steady.access h₂ fun now hnow => h₂.settles_edit (e := .change .promotion)
      (FilterEdit.plain_change rfl rfl) t b.id b.etag now hnow).bind ?_
    intro promoted own₃ h₃
    cases promoted with
    | ok promoted =>
      obtain ⟨hid, -, h₃⟩ := h₃
      exact Request.accounts_pure ⟨hid, _, Or.inr ⟨anonymous, _, rfl⟩, h₃⟩
    | error error =>
      cases error with
      | conflict id =>
        refine (steady.access h₃ fun now hnow => h₃.settles_getFilter b.id .any now hnow).bind ?_
        intro current own₄ h₄
        cases current with
        | ok current =>
          exact Request.accounts_ite
            (fun _ => Request.accounts_pure ⟨h₄.1, _, idle, h₄.2.2⟩)
            fun _ => steady.fail h₄.2.2 rfl
        | error error =>
          cases error with
          | filterNotFound id => exact steady.fail h₄ rfl
          | _ => exact steady.fail h₄ (ServiceError.carriedOut_ofStore _)
      | _ => exact steady.fail h₃ rfl

/-- What a reader takes: nothing, or publishing for somebody unknown. -/
theorem story_get {id : String} (h : Traced settings own [])
    (permits : PermitsLooking settings failed caller id) (selector : Selector) :
    (get id selector caller).Accounts (.story settings failed) me own
      fun b own => b.id = id ∧ Looked settings caller id own := by
  have idle : caller.Looks id [] := Or.inl rfl
  refine (h.getFilter (permits [] idle) id selector).bind ?_
  rintro b own₁ ⟨rfl, -, h₁⟩
  refine Request.accounts_ite (fun _ => Request.accounts_pure ⟨rfl, _, idle, h₁⟩) fun hidden => ?_
  have anonymous : caller.authenticated = false := by
    cases known : caller.authenticated with
    | false => rfl
    | true => simp [known] at hidden
  exact story_promote h₁ permits anonymous

end Blueprints

namespace Selections

variable {caller : Caller} {id : String}

section

variable (h : Traced settings own []) (permits : PermitsLooking settings failed caller id)
include h permits

theorem story_list (selector : Selector) : (list id selector caller).Accounts (.story settings failed)
    me own fun _ => Looked settings caller id :=
  (Blueprints.story_get h permits selector).bind fun _ _ h => Request.accounts_pure h.2

theorem story_get (name : String) (selector : Selector) : (get id name selector caller).Accounts
    (.story settings failed) me own fun _ => Looked settings caller id := by
  refine (Blueprints.story_get h permits selector).bind ?_
  rintro b own₁ ⟨-, h₁⟩
  refine (permits.steady.find h₁ b name).bind ?_
  rintro d own₂ ⟨-, h₂⟩
  exact Request.accounts_pure h₂

theorem story_options (name : String) (selector : Selector) : (options id name selector caller).Accounts
    (.story settings failed) me own fun _ => Looked settings caller id :=
  (story_get h permits name selector).bind fun _ _ h => Request.accounts_pure h

theorem story_option (name o : String) (selector : Selector) :
    (option id name o selector caller).Accounts (.story settings failed) me own
      fun _ => Looked settings caller id :=
  (story_get h permits name selector).bind fun _ _ h =>
    Request.accounts_ite (fun _ => Request.accounts_pure h) fun _ => permits.steady.fail h rfl

end

variable (settings) in
/-- A client has looked for a blueprint and then edited it. -/
def Edited (caller : Caller) (id : String) (own : List Moment) : Prop :=
  ∃ base tag e, caller.Looks id base ∧ Traced settings own (.edits id tag e :: base)

section

variable (permits : PermitsLooking settings failed caller id)
include permits

theorem story_write (h : Looked settings caller id own) {e : FilterEdit} (plain : e.Plain)
    (tag : String) :
    (Request.write fun s t => Store.tagOnly (s.modifyFilter t id (.exact tag) e.apply)).Accounts
      (.story settings failed) me own fun _ => Edited settings caller id := by
  obtain ⟨base, looks, h⟩ := h
  refine (h.edit (permits base looks) plain id tag).weaken ?_
  intro _ own h
  exact ⟨base, tag, e, looks, h⟩

variable (h : Traced settings own [])
include h

theorem story_add (d : Dimension) (selector : Selector) : (add settings id d selector caller).Accounts
    (.story settings failed) me own fun _ => Edited settings caller id := by
  refine (Blueprints.story_get h permits selector).bind ?_
  rintro b own₁ ⟨-, h₁⟩
  refine (permits.steady.editable h₁ b).bind ?_
  intro _ own₂ h₂
  refine (permits.steady.dimension h₂ settings.limits b.dataset d.name _).bind ?_
  intro _ own₃ h₃
  have plain : (FilterEdit.addDimension { d with options := Dimension.distinct d.options }).Plain :=
    FilterEdit.plain_of_ne_change (by simp)
  exact (story_write permits h₃ plain b.etag).bind fun _ _ h => Request.accounts_pure h

theorem story_remove (name : String) (selector : Selector) : (remove id name selector caller).Accounts
    (.story settings failed) me own fun _ => Edited settings caller id := by
  refine (Blueprints.story_get h permits selector).bind ?_
  rintro b own₁ ⟨-, h₁⟩
  refine (permits.steady.editable h₁ b).bind ?_
  intro _ own₂ h₂
  refine (permits.steady.find h₂ b name).bind ?_
  rintro d own₃ ⟨-, h₃⟩
  have plain : (FilterEdit.removeDimension name).Plain := FilterEdit.plain_of_ne_change (by simp)
  exact story_write permits h₃ plain b.etag

/-- An option that is selected already is not written. -/
theorem story_addOption (name o : String) (selector : Selector) :
    (addOption settings id name o selector caller).Accounts (.story settings failed) me own
      fun _ own => Looked settings caller id own ∨ Edited settings caller id own := by
  refine (Blueprints.story_get h permits selector).bind ?_
  rintro b own₁ ⟨-, h₁⟩
  refine (permits.steady.find h₁ b name).bind ?_
  rintro d own₂ ⟨-, h₂⟩
  refine (permits.steady.editable h₂ b).bind ?_
  intro _ own₃ h₃
  refine Request.accounts_ite (fun _ => Request.accounts_pure (Or.inl h₃)) fun _ => ?_
  refine (permits.steady.dimension h₃ settings.limits b.dataset name [o]).bind ?_
  intro _ own₄ h₄
  have plain : (FilterEdit.addOptions name [o]).Plain := FilterEdit.plain_of_ne_change (by simp)
  exact (story_write permits h₄ plain b.etag).weaken fun _ _ => Or.inr

theorem story_removeOption (name o : String) (selector : Selector) :
    (removeOption id name o selector caller).Accounts (.story settings failed) me own
      fun _ => Edited settings caller id := by
  refine (Blueprints.story_get h permits selector).bind ?_
  rintro b own₁ ⟨-, h₁⟩
  refine (permits.steady.find h₁ b name).bind ?_
  rintro d own₂ ⟨-, h₂⟩
  refine Request.accounts_ite (fun _ => permits.steady.fail h₂ rfl) fun _ => ?_
  refine (permits.steady.editable h₂ b).bind ?_
  intro _ own₃ h₃
  have plain : (FilterEdit.removeOptions name [o]).Plain := FilterEdit.plain_of_ne_change (by simp)
  exact story_write permits h₃ plain b.etag

end

/-- One operation of a patch is written, or there is nothing to write. -/
theorem story_apply (h : Traced settings own strokes) (permits : Permits settings failed strokes)
    (d : Dimension) (etag : String) (o : PatchOperation) :
    (apply settings b d etag o).Accounts (.story settings failed) me own fun _ own =>
      Traced settings own strokes ∨ ∃ tag e, Traced settings own (.edits b.id tag e :: strokes) := by
  have edits (d' : Dimension) {e : FilterEdit} (plain : e.Plain) (own' : List Moment)
      (h' : Traced settings own' strokes) :
      (edit b.id d' etag e).Accounts (.story settings failed) me own' fun _ own =>
        Traced settings own strokes ∨
          ∃ tag e, Traced settings own (.edits b.id tag e :: strokes) := by
    refine (h'.edit permits plain b.id etag).bind ?_
    intro tag own h
    exact Request.accounts_pure (Or.inr ⟨_, _, h⟩)
  cases action : o.action with
  | remove =>
    rw [apply_remove action]
    exact Request.accounts_ite (fun _ => Request.accounts_pure (Or.inl h))
      fun _ => edits _ (FilterEdit.plain_of_ne_change (by simp)) own h
  | add =>
    rw [apply_add action]
    refine Request.accounts_ite (fun _ => Request.accounts_pure (Or.inl h)) fun _ => ?_
    refine (permits.steady.dimension h settings.limits b.dataset d.name _).bind ?_
    intro _ own₁ h₁
    exact edits _ (FilterEdit.plain_of_ne_change (by simp)) own₁ h₁

end Selections

theorem Patches.balanced {id : String} {base strokes : List Stroke} {done : List PatchOperation}
    (h : Patches id base done strokes) (hbase : Balanced base) : Balanced strokes := by
  induction h with
  | start => exact hbase
  | idle h o ih => exact ih.cons fun l => by cases l <;> rfl
  | edit h o tag e ih => exact ih.edits.cons fun l => by cases l <;> rfl

namespace Selections

/-- A patch that ends, be it half-way, has carried out what it reports. -/
theorem story_applyAll {id name : String} {operations done : List PatchOperation} {selector : Selector}
    {base : List Stroke} (call : me.call = .patch id name operations selector) (hid : b.id = id)
    (looks : me.caller.Looks id base) (patches : Patches id base done strokes)
    (h : Traced settings own strokes) (d : Dimension) (etag : String) (rest : List PatchOperation) :
    (applyAll settings b done d etag rest).Accounts (.told settings me) me own
      fun r => me.Told settings (.ok (.patched r.1 r.2)) := by
  induction rest generalizing done strokes d etag own with
  | nil =>
    refine Request.accounts_pure ⟨strokes, ?_, h⟩
    rw [call]
    exact ⟨base, looks, patches⟩
  | cons o rest ih =>
    have balanced := patches.balanced looks.balanced
    have applied : (apply settings b d etag o).Accounts
        (.story settings fun _ own => Traced settings own strokes) me own fun _ own =>
          Traced settings own strokes ∨
            ∃ tag e, Traced settings own (.edits b.id tag e :: strokes) :=
      story_apply h ⟨balanced, fun _ _ _ h => h⟩ d etag o
    refine applied.attempt.bind ?_
    intro r own₁ h₁
    cases r with
    | error cause =>
      refine Request.accounts_fail _ ⟨strokes, ?_, h₁⟩
      rw [call]
      exact ⟨base, looks, patches⟩
    | ok r =>
      rcases h₁ with h₁ | ⟨tag, e, h₁⟩
      · exact (h₁.count _).bind fun _ _ h₂ => ih (patches.idle o) h₂ _ _
      · rw [hid] at h₁
        exact (h₁.count _).bind fun _ _ h₂ => ih (patches.edit o tag e) h₂ _ _

/-- What a patch takes: for each operation that is carried out its edit, if there is one, and its
count. -/
theorem story_patch {id name : String} {operations : List PatchOperation} {selector : Selector}
    (call : me.call = .patch id name operations selector) :
    (patch settings id name operations selector me.caller).Accounts (.told settings me) me []
      fun r => me.Told settings (.ok (.patched r.1 r.2)) := by
  have permits : PermitsLooking settings (fun e => me.Told settings (.error e)) me.caller id := by
    refine .told settings me fun e strokes plain looks => ?_
    rw [call]
    refine ⟨strokes, looks, ?_⟩
    rw [carriedOut, plain]
    exact .start
  have idle := permits [] (Or.inl rfl)
  refine (idle.steady.check .start
    fun _ => ServiceError.carriedOut_of_mapError fun _ => rfl).bind ?_
  rintro _ own₁ ⟨-, h₁⟩
  refine (Blueprints.story_get h₁ permits selector).bind ?_
  rintro b own₂ ⟨hid, h₂⟩
  refine (permits.steady.find h₂ b name).bind ?_
  rintro d own₃ ⟨-, h₃⟩
  refine (permits.steady.editable h₃ b).bind ?_
  rintro _ own₄ ⟨base, looks, h₄⟩
  exact story_applyAll call hid looks .start h₄ d b.etag operations

end Selections

namespace Outputs

theorem story_get (h : Traced settings own []) (permits : Permits settings failed []) (id : String)
    (caller : Caller) : (get id caller).Accounts (.story settings failed) me own
      fun _ own => Traced settings own [] := by
  refine (h.getOutput permits id).bind ?_
  intro o own₁ h₁
  exact Request.accounts_ite (fun _ => permits.steady.fail h₁ rfl) fun _ => Request.accounts_pure h₁

/-- An update that completes an output counts it. -/
theorem story_update {id : String} {u : OutputUpdate} (call : me.call = .updateOutput id u)
    (caller : Caller) : (update settings id u caller).Accounts (.told settings me) me []
      fun o => me.Told settings (.ok (.output o)) := by
  have nothing : Permits settings (fun e => me.Told settings (.error e)) [] :=
    .told .nil fun e _ => by rw [call]; rfl
  refine Request.accounts_ite (fun _ => nothing.steady.fail .start rfl) fun _ => ?_
  refine (nothing.steady.now .start).bind ?_
  intro t own₁ h₁
  have tends : (Request.access fun s => s.modifyOutput t id ServiceError.ofStore
      (u.apply settings.downloadUrl t)).Accounts (.told settings me) me own₁
        (Step.Outcome (fun r own => Traced settings own [.tends id u r.2])
          fun _ own => Traced settings own []) := by
    refine Request.accounts_action fun now _ _ => ?_
    rcases now.store.modifyOutput_cases t id ServiceError.ofStore
      (u.apply settings.downloadUrl t) with ⟨error, he⟩ | ⟨o, p, ho, hp, he⟩
    · simp only [he]
      exact ⟨⟨_, h₁.calm ⟨⟨rfl, rfl, rfl⟩, rfl⟩⟩, h₁.calm ⟨⟨rfl, rfl, rfl⟩, rfl⟩⟩
    · simp only [he]
      have next : Traced settings (⟨some me, now, { now with
          store := now.store.puttingOutput t id (now.store.restampedOutput t p.1) }⟩ :: own₁)
          [.tends id u p.2] := h₁.next ⟨t, o, p.1, ho, hp, rfl⟩
      exact ⟨⟨_, next⟩, next⟩
  refine tends.bind ?_
  intro r own₂ h₂
  cases r with
  | error e =>
    refine Request.accounts_fail _ ⟨[], ?_, h₂⟩
    rw [call]
    rfl
  | ok r =>
    obtain ⟨o, completed⟩ := r
    cases completed with
    | true =>
      refine (Traced.count h₂ .outputsCompleted).bind ?_
      intro _ own₃ h₃
      refine Request.accounts_pure ⟨_, ?_, h₃⟩
      rw [call]
      exact Or.inr rfl
    | false =>
      refine Request.accounts_pure ⟨_, ?_, h₂⟩
      rw [call]
      exact Or.inl rfl

theorem story_addEvent {id : String} {r : EventRequest} (call : me.call = .addEvent id r)
    (caller : Caller) : (addEvent id r caller).Accounts (.told settings me) me []
      fun _ => me.Told settings (.ok .recorded) := by
  have nothing : Permits settings (fun e => me.Told settings (.error e)) [] :=
    .told .nil fun e _ => by rw [call]; rfl
  refine Request.accounts_ite (fun _ => nothing.steady.fail .start rfl) fun _ => ?_
  refine (nothing.steady.check .start
    fun _ => ServiceError.carriedOut_of_mapError fun _ => rfl).bind ?_
  rintro e own₁ ⟨valid, h₁⟩
  have records : (Request.write fun s t => s.addOutputEvent t id e).Accounts (.told settings me) me own₁
      fun _ own => Traced settings own [.records id e] := by
    refine nothing.steady.write h₁ fun t own h now _ => ?_
    rcases now.store.addOutputEvent_cases t id e with ⟨error, he⟩ | ⟨o, p, ho, rfl, he⟩ <;> rw [he]
    · exact ⟨rfl, rfl⟩
    · have does : (Stroke.records id e).Does settings own now
          { now with store := now.store.puttingOutput t id _ } := ⟨t, o, ho, rfl⟩
      exact fun _ => ⟨⟨_, h.next does⟩, h.next does⟩
  refine records.bind ?_
  intro _ own₂ h₂
  refine Request.accounts_pure ⟨_, ?_, h₂⟩
  rw [call]
  exact ⟨e, eq_ok_of_mapError valid, rfl⟩

end Outputs

namespace ServiceCall

/-- Whenever a request asks its strokes are in balance, and when it ends they are those of its call. -/
theorem story_request (me : Client) : (me.call.request settings me.caller).Accounts
    (.told settings me) me [] fun a => me.Told settings (.ok a) := by
  obtain ⟨place, caller, call⟩ := me
  cases call with
  | create r andSubmit =>
    refine (Blueprints.story_create rfl caller).bind ?_
    rintro c own ⟨strokes, ⟨b, hid, ends⟩, h⟩
    exact Request.accounts_pure ⟨strokes, ⟨b, congrArg some hid, ends⟩, h⟩
  | get id selector =>
    have permits := PermitsLooking.told settings ⟨place, caller, .get id selector⟩
      fun _ _ _ looks => looks
    refine (Blueprints.story_get .start permits selector).bind ?_
    rintro b own ⟨-, h⟩
    exact Request.accounts_pure h
  | update id u andSubmit selector =>
    refine (Blueprints.story_update rfl caller).bind ?_
    rintro b own ⟨strokes, ends, h⟩
    exact Request.accounts_pure ⟨strokes, ends, h⟩
  | dimensions id selector =>
    have permits := PermitsLooking.told settings ⟨place, caller, .dimensions id selector⟩
      fun _ _ _ looks => looks
    exact (Selections.story_list .start permits selector).bind
      fun _ _ h => Request.accounts_pure h
  | dimension id name selector =>
    have permits := PermitsLooking.told settings ⟨place, caller, .dimension id name selector⟩
      fun _ _ _ looks => looks
    exact (Selections.story_get .start permits name selector).bind
      fun _ _ h => Request.accounts_pure h
  | addDimension id d selector =>
    refine (Selections.story_add (.told settings _ fun _ _ _ => Or.inl) .start d selector).bind ?_
    rintro _ own ⟨base, tag, e, looks, h⟩
    exact Request.accounts_pure ⟨_, Or.inr ⟨rfl, base, tag, e, looks, rfl⟩, h⟩
  | removeDimension id name selector =>
    refine (Selections.story_remove (.told settings _ fun _ _ _ => Or.inl) .start name selector).bind ?_
    rintro _ own ⟨base, tag, e, looks, h⟩
    exact Request.accounts_pure ⟨_, Or.inr ⟨rfl, base, tag, e, looks, rfl⟩, h⟩
  | options id name selector =>
    have permits := PermitsLooking.told settings ⟨place, caller, .options id name selector⟩
      fun _ _ _ looks => looks
    exact (Selections.story_options .start permits name selector).bind
      fun _ _ h => Request.accounts_pure h
  | option id name o selector =>
    have permits := PermitsLooking.told settings ⟨place, caller, .option id name o selector⟩
      fun _ _ _ looks => looks
    exact (Selections.story_option .start permits name o selector).bind
      fun _ _ h => Request.accounts_pure h
  | addOption id name o selector =>
    refine (Selections.story_addOption (.told settings _ fun _ _ _ => Or.inl) .start
      name o selector).bind ?_
    rintro _ own (⟨strokes, looks, h⟩ | ⟨base, tag, e, looks, h⟩)
    · exact Request.accounts_pure ⟨strokes, Or.inl looks, h⟩
    · exact Request.accounts_pure ⟨_, Or.inr ⟨rfl, base, tag, e, looks, rfl⟩, h⟩
  | removeOption id name o selector =>
    refine (Selections.story_removeOption (.told settings _ fun _ _ _ => Or.inl) .start
      name o selector).bind ?_
    rintro _ own ⟨base, tag, e, looks, h⟩
    exact Request.accounts_pure ⟨_, Or.inr ⟨rfl, base, tag, e, looks, rfl⟩, h⟩
  | patch id name operations selector =>
    exact (Selections.story_patch rfl).bind fun _ _ h => Request.accounts_pure h
  | output id =>
    have nothing : Permits settings (fun e => Client.Told settings
        ⟨place, caller, .output id⟩ (.error e)) [] := .told .nil fun _ _ => rfl
    exact (Outputs.story_get .start nothing id caller).bind
      fun _ _ h => Request.accounts_pure ⟨[], rfl, h⟩
  | updateOutput id u =>
    exact (Outputs.story_update rfl caller).bind fun _ _ h => Request.accounts_pure h
  | addEvent id r =>
    exact (Outputs.story_addEvent rfl caller).bind fun _ _ h => Request.accounts_pure h

end ServiceCall

end DatasetFilters
