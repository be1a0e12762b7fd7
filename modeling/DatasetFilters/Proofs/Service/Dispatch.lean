import DatasetFilters.Proofs.Service.Steady
import DatasetFilters.Proofs.Store.Inventory

namespace DatasetFilters

/-- A message is accepted at the end of the buffer, or the buffer stays as it is. -/
theorem Channel.enqueue_cases (c : Channel) (outputId : String) :
    ((c.enqueue outputId).1 = .ok () ∧
      (c.enqueue outputId).2.buffer = c.buffer ++ [⟨c.topic, outputId⟩]) ∨
    ∃ error, (c.enqueue outputId).1 = .error error ∧ (c.enqueue outputId).2.buffer = c.buffer := by
  unfold enqueue offer
  by_cases hopen : c.isOpen = true
  · by_cases room : (c.buffer.length < c.capacity && c.line.isEmpty) = true
    · simp [hopen, room]
    · simp [hopen, room, giveUp]
  · simp [hopen]

namespace Moment

/-- The output ids that a client's message named at this moment. -/
def sent (m : Moment) : List String :=
  if m.mover.isSome then
    (m.after.channel.buffer.drop m.before.channel.buffer.length).map (·.outputId)
  else []

/-- The outputs that are there since this moment. -/
def made (m : Moment) : List String :=
  (m.after.store.backend.outputs.map (·.1)).filter fun id =>
    (m.before.store.backend.find? .outputs id).isNone

/-- A blueprint is submitted since this moment. -/
def Marks (m : Moment) : Prop :=
  ∃ y, m.after.Stores y ∧ y.isSubmitted = true ∧
    ∀ x, m.before.Stores x → x.id = y.id → x.isSubmitted = false

/-- The channel refused a message about an output. -/
def Refuses (m : Moment) (outputId : String) : Prop :=
  ∃ error, m.before.channel.enqueue outputId = (.error error, m.after.channel)

variable {m : Moment}

theorem sent_of_channel_eq (h : m.after.channel = m.before.channel) : m.sent = [] := by
  simp [sent, h]

theorem made_of_outputs_eq (h : m.after.store.backend.outputs = m.before.store.backend.outputs) :
    m.made = [] := by
  rw [made, h, List.filter_eq_nil_iff]
  intro id hid free
  obtain ⟨⟨key, text⟩, hmem, rfl⟩ := List.mem_map.mp hid
  rw [Option.isNone_iff_eq_none, Backend.find?, Backend.documents, List.lookup_eq_none_iff] at free
  have := free (key, text) hmem
  simp at this

theorem not_marks_of_filters_eq
    (h : m.after.store.backend.filters = m.before.store.backend.filters) : ¬m.Marks := by
  intro marks
  obtain ⟨y, hy, submitted, before⟩ := marks
  have := before y ((World.stores_of_filters_eq h).mp hy) rfl
  simp [submitted] at this

theorem made_of_puttingOutput {mover : Option Client} {now : World} {t : Instant} {id : String}
    (free : now.store.backend.find? .outputs id = none) (o : Output) :
    (⟨mover, now, { now with store := now.store.puttingOutput t id o }⟩ : Moment).made = [id] := by
  have none : now.store.backend.outputs.lookup id = none := free
  have before : (now.store.backend.outputs.map (·.1)).filter
      (fun key => (now.store.backend.find? .outputs key).isNone) = [] :=
    made_of_outputs_eq (m := ⟨mover, now, now⟩) rfl
  simp only [made, Store.puttingOutput, Backend.put, Backend.touched, Table.put_of_lookup_eq_none none,
    List.map_append, List.filter_append, before]
  simp [free]

/-- A write marks nothing if what it leaves is submitted just if it was so before. -/
theorem not_marks_of_keeping {mover : Option Client} {now : World} {t : Instant} {b : Blueprint}
    (h : b.isSubmitted = true → ∃ x, now.Stores x ∧ x.id = b.id ∧ x.isSubmitted = true) :
    ¬(⟨mover, now, { now with store := now.store.keeping t b }⟩ : Moment).Marks := by
  intro marks
  obtain ⟨y, hy, submitted, before⟩ := marks
  rcases World.stores_keeping hy with rfl | hy
  · obtain ⟨x, hx, hid, hs⟩ := h submitted
    simp [before x hx hid] at hs
  · simp [before y hy rfl] at submitted

end Moment

/-- What a client did before it marked a blueprint: it made these outputs, and sent and marked
nothing. So if it fails then, nothing was sent or marked. -/
structure Working (made : List String) (own : List Moment) : Prop where
  made : own.flatMap Moment.made = made
  sent : own.flatMap Moment.sent = []
  unmarked : ∀ m ∈ own, ¬m.Marks

/-- What a client did that failed. -/
structure Failed (own : List Moment) : Prop where
  sent : own.flatMap Moment.sent = []
  unmarked : ∀ m ∈ own, ¬m.Marks

/-- What a client did that submitted a blueprint. -/
def Dispatched (b : Blueprint) (own : List Moment) : Prop :=
  ∃ outputId, b.outputId = some outputId ∧ own.flatMap Moment.made = [outputId] ∧
    (own.flatMap Moment.sent = [outputId] ∨
      own.flatMap Moment.sent = [] ∧ ∃ m ∈ own, m.Refuses outputId)

theorem Failed.rests {own : List Moment} {m : Moment} (h : Failed own) (hm : m.Rests) :
    Failed (m :: own) where
  sent := by rw [List.flatMap_cons, Moment.sent_of_channel_eq hm.channel, h.sent]; rfl
  unmarked := by
    intro m' hm'
    rcases List.mem_cons.mp hm' with rfl | hm'
    · exact Moment.not_marks_of_filters_eq hm.filters
    · exact h.unmarked m' hm'

theorem Dispatched.rests {b : Blueprint} {own : List Moment} {m : Moment} (h : Dispatched b own)
    (hm : m.Rests) : Dispatched b (m :: own) := by
  obtain ⟨outputId, named, made, sent⟩ := h
  refine ⟨outputId, named, ?_, ?_⟩
  · rw [List.flatMap_cons, Moment.made_of_outputs_eq hm.outputs, made]
    rfl
  · rw [List.flatMap_cons, Moment.sent_of_channel_eq hm.channel, List.nil_append]
    exact sent.imp_right fun ⟨sent, n, hn, refuses⟩ => ⟨sent, n, List.mem_cons_of_mem m hn, refuses⟩

namespace Working

variable {made : List String} {own : List Moment} {m : Moment}

theorem failed (h : Working made own) : Failed own := ⟨h.sent, h.unmarked⟩

theorem cons (h : Working made own) (hmade : m.made = []) (hsent : m.sent = []) (hmarks : ¬m.Marks) :
    Working made (m :: own) where
  made := by rw [List.flatMap_cons, hmade, h.made]; rfl
  sent := by rw [List.flatMap_cons, hsent, h.sent]; rfl
  unmarked := by
    intro m' hm'
    rcases List.mem_cons.mp hm' with rfl | hm'
    · exact hmarks
    · exact h.unmarked m' hm'

theorem rests (h : Working made own) (hm : m.Rests) : Working made (m :: own) :=
  h.cons (Moment.made_of_outputs_eq hm.outputs) (Moment.sent_of_channel_eq hm.channel)
    (Moment.not_marks_of_filters_eq hm.filters)

theorem steady : Terms.Steady Failed (Working made) where
  calm h hm := ⟨⟨trivial, trivial⟩, h.rests hm.toRests⟩
  failed _ h := h.failed

end Working

variable {settings : Settings} {me : Client} {own : List Moment} {made : List String}

namespace Request

theorem accounts_addFilter (h : Working made own) {b : Instant → Blueprint}
    (blank : ∀ t, (b t).isSubmitted = false) :
    (write fun s t => s.addFilter t (b t)).Accounts Failed me own fun _ => Working made := by
  refine Working.steady.write h ?_
  intro t own working now hnow
  rcases Store.addFilter_cases hnow t (b t) with ⟨error, he⟩ | ⟨free, he⟩ <;> rw [he]
  · exact ⟨rfl, rfl⟩
  · refine fun _ => ⟨trivial, ?_⟩
    refine working.cons (Moment.made_of_outputs_eq rfl) (Moment.sent_of_channel_eq rfl) ?_
    refine Moment.not_marks_of_keeping fun submitted => ?_
    have unsubmitted : (now.store.stampedFilter t (b t)).isSubmitted = false := blank t
    simp [unsubmitted] at submitted

theorem accounts_updateFilter (h : Working made own) (id : String) {change : BlueprintChange}
    (state : change.state = none) (selector : Selector) :
    (write fun s t => s.updateFilter t id change selector).Accounts Failed me own
      fun _ => Working made := by
  refine Working.steady.write h ?_
  intro t own working now hnow
  rw [Store.updateFilter_eq_modifyFilter]
  rcases Store.modifyFilter_cases hnow t id selector (.change change) with
    ⟨error, he⟩ | ⟨x, c, hx, -, hc, ⟨-, he⟩ | ⟨-, he⟩⟩ <;> rw [he]
  · exact ⟨rfl, rfl⟩
  · exact fun _ => ⟨trivial, working.rests ⟨rfl, rfl, rfl⟩⟩
  · refine fun _ => ⟨trivial, ?_⟩
    refine working.cons (Moment.made_of_outputs_eq rfl) (Moment.sent_of_channel_eq rfl) ?_
    refine Moment.not_marks_of_keeping fun submitted => ?_
    have kept : c.isSubmitted = x.isSubmitted := by
      rw [FilterEdit.apply_change hc, Blueprint.isSubmitted, BlueprintChange.apply, state]
      rfl
    exact ⟨x, World.stores_of_filter? hnow hx, (FilterEdit.apply_id_etag hc).1.symm, kept ▸ submitted⟩

theorem accounts_addOutput (h : Working [] own) (outputId : String) (b : Blueprint)
    (time : Instant) :
    (write fun s t => s.addOutput t (.ofBlueprint outputId b time)).Accounts Failed me own
      fun _ => Working [outputId] := by
  refine Working.steady.write h ?_
  intro t own working now hnow
  rcases now.store.addOutput_cases t (.ofBlueprint outputId b time) with
    ⟨error, he⟩ | ⟨free, he⟩ <;> rw [he]
  · exact ⟨rfl, rfl⟩
  · refine fun _ => ⟨trivial, ?_⟩
    constructor
    · rw [List.flatMap_cons, Moment.made_of_puttingOutput free, working.made]
      rfl
    · rw [List.flatMap_cons, Moment.sent_of_channel_eq rfl, working.sent]
      rfl
    · intro m hm
      rcases List.mem_cons.mp hm with rfl | hm
      · exact Moment.not_marks_of_filters_eq rfl
      · exact working.unmarked m hm

/-- Marking the blueprint submitted: if it fails, nothing is marked. -/
theorem accounts_mark (h : Working made own) (id outputId : String) (time : Instant)
    (selector : Selector) :
    (write fun s t => s.updateFilter t id (.submission outputId time) selector).Accounts Failed me
      own fun c own => c.outputId = some outputId ∧ own.flatMap Moment.made = made ∧
        own.flatMap Moment.sent = [] := by
  refine Working.steady.write h ?_
  intro t own working now hnow
  rw [Store.updateFilter_eq_modifyFilter]
  have tally (store : Store) (outputs : store.backend.outputs = now.store.backend.outputs) :
      (⟨some me, now, { now with store }⟩ :: own).flatMap Moment.made = made ∧
        (⟨some me, now, { now with store }⟩ :: own).flatMap Moment.sent = [] := by
    rw [List.flatMap_cons, List.flatMap_cons, Moment.made_of_outputs_eq outputs,
      Moment.sent_of_channel_eq rfl, working.made, working.sent]
    exact ⟨rfl, rfl⟩
  rcases Store.modifyFilter_cases hnow t id selector (.change (.submission outputId time)) with
    ⟨error, he⟩ | ⟨x, c, hx, -, hc, ⟨-, he⟩ | ⟨-, he⟩⟩ <;> rw [he]
  · exact ⟨rfl, rfl⟩
  · refine fun _ => ⟨trivial, ?_, tally _ rfl⟩
    rw [FilterEdit.apply_change hc]
    rfl
  · refine fun _ => ⟨trivial, ?_, tally _ rfl⟩
    rw [FilterEdit.apply_change hc]
    rfl

end Request

namespace Blueprints

/-- The message names the output that was made, and is sent unless the channel refuses it. -/
theorem accounts_enqueue {b : Blueprint} {outputId : String} (named : b.outputId = some outputId)
    (made : own.flatMap Moment.made = [outputId]) (sent : own.flatMap Moment.sent = []) :
    (Request.enqueue outputId : Request ε _).Accounts Failed me own fun _ => Dispatched b := by
  refine Request.accounts_act ?_
  intro now _
  refine ⟨outputId, named, ?_, ?_⟩
  · rw [List.flatMap_cons, Moment.made_of_outputs_eq rfl, made]
    rfl
  · rw [List.flatMap_cons, sent, List.append_nil]
    rcases now.channel.enqueue_cases outputId with ⟨-, accepted⟩ | ⟨error, he, refused⟩
    · refine Or.inl ?_
      simp [Moment.sent, accepted]
    · refine Or.inr ⟨?_, _, List.mem_cons_self, error, Prod.ext he rfl⟩
      simp [Moment.sent, refused]

/-- A submission that succeeds made one output and sent one message, unless the channel refused
it. -/
theorem accounts_submit (h : Working [] own) (b : Blueprint) :
    (submit b).Accounts Failed me own Dispatched := by
  refine Request.accounts_ite (fun _ => Working.steady.fail h rfl) fun _ => ?_
  refine (Working.steady.now h).bind ?_
  intro time own₁ h₁
  refine (Working.steady.drawId h₁).bind ?_
  intro outputId own₂ h₂
  refine (Request.accounts_addOutput h₂ outputId b time).bind ?_
  intro _ own₃ h₃
  refine (Request.accounts_mark h₃ b.id outputId time (.exact b.etag)).bind ?_
  intro c own₄ h₄
  obtain ⟨named, made, sent⟩ := h₄
  -- from here on nothing fails
  refine (Request.accounts_act (p := fun _ own => own.flatMap Moment.made = [outputId] ∧
    own.flatMap Moment.sent = []) ?_).bind ?_
  · intro now _
    rw [List.flatMap_cons, List.flatMap_cons, Moment.made_of_outputs_eq rfl,
      Moment.sent_of_channel_eq rfl, made, sent]
    exact ⟨rfl, rfl⟩
  intro _ own₅ h₅
  refine (accounts_enqueue named h₅.1 h₅.2).bind ?_
  intro result own₆ h₆
  cases result with
  | ok u => exact Request.accounts_pure h₆
  | error e =>
    have counted : (Request.count .dispatchFailures : Request ServiceError Unit).Accounts Failed me
        own₆ fun _ => Dispatched c :=
      Request.accounts_act fun _ _ => h₆.rests ⟨rfl, rfl, rfl⟩
    exact counted.bind fun _ _ h => Request.accounts_pure h

theorem accounts_create (r : NewBlueprint) (caller : Caller) (h : Working [] own) :
    (create settings r true caller).Accounts Failed me own Dispatched := by
  refine (Working.steady.ask h _).bind ?_
  intro reply own₁ h₁
  refine (Working.steady.answered h₁ reply).bind ?_
  intro version own₂ h₂
  refine (Working.steady.check h₂ fun _ => carriedOut_normalise).bind ?_
  intro dimensions own₃ h₃
  refine (Working.steady.dimensions h₃.2 settings.limits r.dataset dimensions).bind ?_
  intro _ own₄ h₄
  refine (Working.steady.drawId h₄).bind ?_
  intro id own₅ h₅
  refine (Request.accounts_addFilter h₅ fun _ => rfl).bind ?_
  intro stored own₆ h₆
  refine (Request.accounts_act (p := fun _ => Working []) fun _ _ => h₆.rests ⟨rfl, rfl, rfl⟩).bind ?_
  intro _ own₇ h₇
  exact accounts_submit h₇ stored

theorem accounts_update (id : String) (u : BlueprintUpdate) (selector : Selector) (caller : Caller)
    (h : Working [] own) :
    (update settings id u true selector caller).Accounts Failed me own Dispatched := by
  refine (Working.steady.getFilter h id selector).bind ?_
  intro current own₁ h₁
  refine Request.accounts_ite (fun _ => Working.steady.fail h₁ rfl) fun _ => ?_
  refine (Working.steady.check h₁ fun _ => u.carriedOut_validEvents).bind ?_
  intro events own₂ h₂
  have finishes (change : BlueprintChange) (own' : List Moment) (state : change.state = none)
      (h' : Working [] own') :
      (if true && current.isSubmitted then Request.fail (.alreadySubmitted current.id)
        else if change.isEmpty then pure current >>= fun updated => submit updated
        else
          (Request.write fun s t => s.updateFilter t id change (.exact current.etag)) >>=
            fun updated => submit updated).Accounts Failed me own' Dispatched := by
    refine Request.accounts_ite (fun _ => Working.steady.fail h' rfl) fun _ => ?_
    refine Request.accounts_ite (fun _ => accounts_submit h' current) fun _ => ?_
    exact (Request.accounts_updateFilter h' id state _).bind
      fun updated _ h => accounts_submit h updated
  cases hversion : u.newVersion? current with
  | some version =>
    refine (Working.steady.moveTo h₂.2 current version caller).bind ?_
    intro move own₃ h₃
    exact finishes { move with events } own₃ h₃.1.1 h₃.2
  | none => exact finishes { events } own₂ rfl h₂.2

end Blueprints

/-- A call that submits either fails without having sent or marked anything, or gives a blueprint for
which it made one output and sent one message, if the channel took it. -/
theorem ServiceCall.accounts_request {me : Client} (submits : me.call.submits = true) :
    (me.call.request settings me.caller).Accounts Failed me []
      fun answer own => ∃ b, answer = .blueprint b ∧ Dispatched b own := by
  have start : Working [] [] := ⟨rfl, rfl, by simp⟩
  obtain ⟨place, caller, call⟩ := me
  cases call with
  | create r andSubmit =>
    obtain rfl : andSubmit = true := submits
    exact (Blueprints.accounts_create r caller start).bind
      fun b _ h => Request.accounts_pure ⟨b, rfl, h⟩
  | update id u andSubmit selector =>
    obtain rfl : andSubmit = true := submits
    exact (Blueprints.accounts_update id u selector caller start).bind
      fun b _ h => Request.accounts_pure ⟨b, rfl, h⟩
  | _ => simp [ServiceCall.submits] at submits

end DatasetFilters
