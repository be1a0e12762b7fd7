import DatasetFilters.Proofs.Output.Completion
import DatasetFilters.Proofs.Service.Dispatch
import DatasetFilters.Proofs.Service.Strokes
import DatasetFilters.Proofs.Store.Inventory

namespace DatasetFilters

namespace World

/-- By how much a world has more of what a ledger is about than its counter says. -/
def balance (w : World) : Ledger → Int
  | .created => w.store.blueprints.length - w.counters.value .blueprintsCreated
  | .submitted =>
    w.store.blueprints.countP Blueprint.isSubmitted - w.counters.value .blueprintsSubmitted
  | .dispatched => w.counters.value .dispatchFailures - w.counters.value .blueprintsSubmitted
  | .completed => w.store.outputs.countP Output.isCompleted - w.counters.value .outputsCompleted

theorem balance_of_empty (w : World) (filters : w.store.backend.filters = [])
    (outputs : w.store.backend.outputs = []) (zero : ∀ c, w.counters.value c = 0) (l : Ledger) :
    w.balance l = 0 := by
  cases l <;> simp [balance, Store.blueprints, Store.outputs, filters, outputs, zero]

variable {now next : World} {id tag : String} {e : FilterEdit}

/-- An edit leaves as many blueprints of a kind as there were, if it leaves its own as it was. -/
theorem TakesEdit.countP (h : now.TakesEdit id tag e next) (sound : now.store.Sound)
    {p : Blueprint → Bool} (same : ∀ y c t, e.apply y = .ok c → p (now.store.restamped t c) = p y) :
    next.store.blueprints.countP p = now.store.blueprints.countP p := by
  obtain ⟨y, c, hy, -, hc, ⟨-, rfl⟩ | ⟨-, t, rfl⟩⟩ := h
  · rfl
  · have hid : (now.store.restamped t c).id = id :=
      (FilterEdit.apply_id_etag hc).1.trans (sound.id_eq hy)
    have counted := now.store.countP_blueprints_keeping t (now.store.restamped t c) p
    rw [hid, hy, Option.any_some, same y c t hc] at counted
    exact Nat.add_right_cancel counted

theorem TakesEdit.keyed (h : now.TakesEdit id tag e next) (keyed : now.store.Keyed) :
    next.store.Keyed := by
  obtain ⟨y, c, -, -, -, ⟨-, rfl⟩ | ⟨-, t, rfl⟩⟩ := h
  · exact keyed.of_backend_eq rfl rfl
  · exact keyed.keeping t _

end World

/-- If the stroke marks a blueprint, then one that was not submitted, and the mark is written. -/
def Stroke.Written (now : World) : Stroke → Prop
  | marks id tag outputId time => ∀ y, now.store.filter? id = some y → y.etag = tag →
      y.isSubmitted = false ∧ ((BlueprintChange.submission outputId time).apply y).tag ≠ y.etag
  | _ => True

/-- What a stroke adds to what a ledger is about. -/
def Stroke.adds : Ledger → Stroke → Nat
  | .created, creates _ | .submitted, marks .. | .dispatched, sends _ true
  | .completed, tends _ _ true => 1
  | _, _ => 0

def Stroke.counted (c : Counter) : Stroke → Nat
  | counts c' => if c = c' then 1 else 0
  | _ => 0

theorem Store.outputs_of_eq {s s' : Store} (h : s'.backend.outputs = s.backend.outputs) :
    s'.outputs = s.outputs := by
  rw [Store.outputs, h, Store.outputs]

theorem Store.blueprints_of_eq {s s' : Store} (h : s'.backend.filters = s.backend.filters) :
    s'.blueprints = s.blueprints := by
  rw [Store.blueprints, h, Store.blueprints]

theorem Store.countP_outputs_put {s : Store} {id : String} {o : Output} (stored : s.output? id = some o)
    (t : Instant) (o' : Output) (p : Output → Bool) :
    (s.puttingOutput t id o').outputs.countP p + (p o).toNat =
      s.outputs.countP p + (p o').toNat := by
  have counted := s.countP_outputs_puttingOutput t id o' p
  rwa [stored, Option.any_some] at counted

namespace Stroke.Does

variable {settings : Settings} {own : List Moment} {now next : World} {stroke : Stroke}
  (h : stroke.Does settings own now next)
include h

theorem length_blueprints (sound : now.store.Sound) :
    next.store.blueprints.length = now.store.blueprints.length + stroke.adds .created := by
  rw [← List.countP_true]
  cases stroke with
  | creates b =>
    obtain ⟨free, -, -, -, t, rfl⟩ := h
    have counted := now.store.countP_blueprints_keeping t b fun _ => true
    rw [free] at counted
    exact counted
  | edits id tag e => exact h.2.countP sound fun _ _ _ _ => rfl
  | marks id tag outputId time => exact h.2.2.countP sound fun _ _ _ _ => rfl
  | makes | tends | records | sends | counts =>
    rw [Store.blueprints_of_eq (h.filters_eq (by simp [target?]))]
    rfl

/-- A stroke adds to the submitted blueprints the one that it marks, if the mark is written. -/
theorem countP_submitted (sound : now.store.Sound) (written : stroke.Written now) :
    next.store.blueprints.countP Blueprint.isSubmitted =
      now.store.blueprints.countP Blueprint.isSubmitted + stroke.adds .submitted := by
  cases stroke with
  | creates b =>
    obtain ⟨free, -, state, -, t, rfl⟩ := h
    have unsubmitted : b.isSubmitted = false := by
      rw [Blueprint.isSubmitted, state]
      rfl
    have counted := now.store.countP_blueprints_keeping t b Blueprint.isSubmitted
    rw [free, unsubmitted] at counted
    exact counted
  | edits id tag e =>
    obtain ⟨plain, takes⟩ := h
    refine takes.countP sound fun y c t hc => ?_
    rw [Blueprint.isSubmitted, Blueprint.isSubmitted, ← (plain.apply hc).1]
    rfl
  | marks id tag outputId time =>
    obtain ⟨-, -, y, c, hy, htag, hc, takes⟩ := h
    obtain ⟨unsubmitted, changes⟩ := written y hy htag
    rw [← FilterEdit.apply_change hc] at changes
    rcases takes with ⟨same, -⟩ | ⟨-, t, rfl⟩
    · exact absurd same changes
    · have hid : (now.store.restamped t c).id = id :=
        (FilterEdit.apply_id_etag hc).1.trans (sound.id_eq hy)
      have submitted : (now.store.restamped t c).isSubmitted = true := by
        rw [FilterEdit.apply_change hc]
        rfl
      have counted := now.store.countP_blueprints_keeping t (now.store.restamped t c)
        Blueprint.isSubmitted
      rw [hid, hy, Option.any_some, unsubmitted, submitted] at counted
      exact counted
  | makes | tends | records | sends | counts =>
    rw [Store.blueprints_of_eq (h.filters_eq (by simp [target?]))]
    rfl

/-- A stroke adds to the completed outputs the one that it completes. -/
theorem countP_completed : next.store.outputs.countP Output.isCompleted =
    now.store.outputs.countP Output.isCompleted + stroke.adds .completed := by
  cases stroke with
  | creates | edits | marks | sends | counts =>
    rw [Store.outputs_of_eq (h.outputs_eq (by simp [target?]))]
    rfl
  | makes o =>
    obtain ⟨free, ⟨b, time, stamp, ho⟩, t, rfl⟩ := h
    have counted := now.store.countP_outputs_puttingOutput t o.id o Output.isCompleted
    have uncompleted : o.isCompleted = false := by
      rw [ho]
      rfl
    rw [Store.output?_of_free free, uncompleted] at counted
    exact counted
  | tends id u completed =>
    obtain ⟨t, o, p, stored, applied, rfl⟩ := h
    have counted := Store.countP_outputs_put stored t (now.store.restampedOutput t p)
      Output.isCompleted
    have completes : p.isCompleted = (o.isCompleted || completed) :=
      OutputUpdate.isCompleted_apply applied
    change _ = _ + p.isCompleted.toNat at counted
    rw [completes] at counted
    cases completed with
    | true =>
      rw [OutputUpdate.isCompleted_of_apply_true applied rfl] at counted
      exact counted
    | false =>
      rw [Bool.or_false] at counted
      exact Nat.add_right_cancel counted
  | records id e =>
    obtain ⟨t, o, stored, rfl⟩ := h
    have counted := Store.countP_outputs_put stored t
      (now.store.restampedOutput t { o with events := o.events ++ [e] }) Output.isCompleted
    exact Nat.add_right_cancel counted

theorem value_counters (c : Counter) :
    next.counters.value c = now.counters.value c + stroke.counted c := by
  cases stroke with
  | creates | edits | marks | makes | tends | records =>
    rw [h.eq_store (by simp [target?])]
    rfl
  | sends outputId accepted =>
    obtain ⟨rfl, -⟩ := h
    rfl
  | counts c' =>
    obtain rfl : next = _ := h
    simp only [Counters.value_increment, counted]
    by_cases same : c = c'
    · rw [if_pos same, if_pos same, same]
    · rw [if_neg same, if_neg same, Nat.add_zero]

theorem length_sent (me : Client) :
    (⟨some me, now, next⟩ : Moment).sent.length = stroke.adds .dispatched := by
  have silent (same : next.channel = now.channel) :
      (⟨some me, now, next⟩ : Moment).sent.length = 0 := by
    rw [Moment.sent_of_channel_eq same]
    rfl
  cases stroke with
  | creates | edits | marks | makes | tends | records =>
    refine silent ?_
    rw [h.eq_store (by simp [target?])]
  | sends outputId accepted =>
    obtain ⟨rfl, rfl⟩ := h
    rcases now.channel.enqueue_cases outputId with ⟨sent, accepted⟩ | ⟨error, refused, same⟩
    · rw [sent]
      simp [Moment.sent, accepted, adds, Except.isOk, Except.toBool]
    · rw [refused]
      simp [Moment.sent, same, adds, Except.isOk, Except.toBool]
  | counts c =>
    obtain rfl : next = _ := h
    exact silent rfl

theorem keyed (keyed : now.store.Keyed) : next.store.Keyed := by
  cases stroke with
  | creates b =>
    obtain ⟨-, -, -, -, t, rfl⟩ := h
    exact keyed.keeping t b
  | edits id tag e => exact h.2.keyed keyed
  | marks id tag outputId time => exact h.2.2.keyed keyed
  | makes o =>
    obtain ⟨-, -, t, rfl⟩ := h
    exact keyed.puttingOutput t _ _
  | tends id u completed =>
    obtain ⟨t, o, p, -, -, rfl⟩ := h
    exact keyed.puttingOutput t _ _
  | records id e =>
    obtain ⟨t, o, -, rfl⟩ := h
    exact keyed.puttingOutput t _ _
  | sends | counts =>
    exact keyed.of_backend_eq (h.filters_eq (by simp [target?])) (h.outputs_eq (by simp [target?]))

end Stroke.Does

/-- The messages that matter to a ledger. -/
def Ledger.messages (past : List Moment) : Ledger → Int
  | dispatched => (past.flatMap Moment.sent).length
  | _ => 0

theorem Ledger.messages_cons (m : Moment) (past : List Moment) (l : Ledger) :
    l.messages (m :: past) = l.messages [m] + l.messages past := by
  cases l <;> simp [messages]

/-- What a moment adds to one side of an agreement, or, if negative, to the other one. -/
def Moment.shift (m : Moment) (l : Ledger) : Int :=
  m.after.balance l - m.before.balance l + l.messages [m]

namespace Moment

variable {m : Moment} {l : Ledger}

theorem Calm.shift (h : m.Calm) : m.shift l = 0 := by
  have same : m.after.balance l = m.before.balance l := by
    cases l <;> simp only [World.balance, Store.blueprints_of_eq h.filters,
      Store.outputs_of_eq h.outputs, h.counters]
  cases l <;> simp [Moment.shift, Ledger.messages, same, sent_of_channel_eq h.channel]

theorem OfReceiver.shift (h : m.OfReceiver) : m.shift l = 0 := by
  have same : m.after.balance l = m.before.balance l := by
    cases l <;> simp only [World.balance, h.store, h.counters]
  cases l <;> simp [Moment.shift, Ledger.messages, same, sent, h.mover]

end Moment

/-- A stroke shifts each ledger by its weight. -/
theorem Stroke.Does.shift {settings : Settings} {own : List Moment} {now next : World} {stroke : Stroke}
    (h : stroke.Does settings own now next) (me : Client) (sound : now.store.Sound) {l : Ledger}
    (written : l = .submitted → stroke.Written now) :
    (⟨some me, now, next⟩ : Moment).shift l = stroke.weight l := by
  cases l with
  | created =>
    simp only [Moment.shift, World.balance, Ledger.messages, h.length_blueprints sound,
      h.value_counters]
    cases stroke with
    | counts c => cases c <;> simp [weight, adds, counted]
    | _ => simp [weight, adds, counted]
  | submitted =>
    simp only [Moment.shift, World.balance, Ledger.messages,
      h.countP_submitted sound (written rfl), h.value_counters]
    cases stroke with
    | counts c => cases c <;> simp [weight, adds, counted]
    | _ => simp [weight, adds, counted]
  | dispatched =>
    simp only [Moment.shift, World.balance, Ledger.messages, List.flatMap_singleton, h.length_sent me,
      h.value_counters]
    cases stroke with
    | counts c => cases c <;> simp [weight, adds, counted]
    | sends outputId accepted => cases accepted <;> simp [weight, adds, counted]
    | _ => simp [weight, adds, counted]
  | completed =>
    simp only [Moment.shift, World.balance, Ledger.messages, h.countP_completed, h.value_counters]
    cases stroke with
    | counts c => cases c <;> simp [weight, adds, counted]
    | tends id u completed => cases completed <;> simp [weight, adds, counted]
    | _ => simp [weight, adds, counted]

end DatasetFilters
