import DatasetFilters.Proofs.Service.Consistency
import DatasetFilters.Proofs.Service.Dispatch
import Mathlib.Data.List.Flatten
import Mathlib.Data.List.Nodup

namespace DatasetFilters

section

variable {settings : Settings} {answers : Nat → (q : Query) → q.Reply → Prop}
  {documents : Blueprint → Prop} {past : List Moment} {start : World} {s : Server}

/-- A message is sent by a client that made the output and took a blueprint submitted to it. -/
theorem Moment.Keeps.of_sent {m : Moment} (h : m.Keeps (.ofServices settings answers documents) past)
    {id : String} (hid : id ∈ m.sent) :
    ∃ (me : Client) (b : Blueprint), m.mover = some me ∧ me.call.submits = true ∧
      (∃ b' time, me.Made settings answers past b' id time) ∧
      me.Took past (me.Changes settings answers) b ∧ b.isSubmitted = true ∧ b.outputId = some id := by
  have silent (same : m.after.channel = m.before.channel) : False := by
    simp [Moment.sent_of_channel_eq same] at hid
  cases h with
  | idle me past now hvalid => exact (silent rfl).elim
  | received past now channel hvalid => simp [Moment.sent] at hid
  | own me past now next hvalid hdeed =>
    cases hdeed with
    | rests filters outputs channel => exact (silent channel).elim
    | creates b t version new free told instanceId confirmed published blank fresh kept =>
      exact (silent (by rw [kept])).elim
    | edits a x c t e saw follows sees cleared found same justified applied changed kept =>
      exact (silent (by rw [kept])).elim
    | works busy cleared filters work =>
      cases work with
      | makes b outputId t time stamp submits took free kept => exact (silent (by rw [kept])).elim
      | tends id' old o' t found same kept => exact (silent (by rw [kept])).elim
      | sends b outputId submits made took submitted named kept =>
        have same : id = outputId := by
          rw [kept] at hid
          rcases now.channel.enqueue_cases outputId with ⟨-, accepted⟩ | ⟨error, -, refused⟩
          · simpa [Moment.sent, accepted] using hid
          · simp [Moment.sent, refused] at hid
        subst same
        exact ⟨me, b, rfl, submits, made, took, submitted, named⟩

namespace Run

theorem before {m : Moment} (run : Run settings answers start (m :: past) s) :
    ∃ s', Run settings answers start past s' ∧ s'.world = m.before := by
  cases run with
  | next run move => exact ⟨_, run, rfl⟩

variable (run : Run settings answers start past s)
  (keeps : ∀ m earlier, (m :: earlier) <:+ past →
    m.Keeps (.ofServices settings answers documents) earlier)
include run keeps

/-- At every moment the outputs are there that were there before. -/
theorem output_kept_before {m m' : Moment} {earlier earlier' : List Moment}
    (hs' : (m' :: earlier') <:+ past) (hs : (m :: earlier) <:+ earlier') {id : String} {o : Output}
    (stored : m.after.store.output? id = some o) :
    ∃ o', m'.before.store.output? id = some o' ∧ o'.plan = o.plan := by
  obtain ⟨s₁, run₁⟩ := run.of_suffix hs'
  obtain ⟨s₂, run₂, left⟩ := run₁.before
  have grown := (List.suffix_cons m' earlier').trans hs'
  rw [← left]
  exact run₂.output_kept (fun m earlier h => keeps m earlier (h.trans grown)) hs stored

/-- In a run submitted blueprints have their outputs, and others have none. -/
theorem consistent (hash : NoCollision settings answers past)
    (hdocuments : Sha256.Separates fun m => ∃ b, documents b ∧ m = b.content)
    (hstart : start.Consistent) : s.world.Consistent := by
  refine run.invariant (I := World.Consistent) hstart ?_
  intro m earlier hs hbefore
  have hash := hash.earlier ((List.suffix_cons m earlier).trans hs)
  have history : ∀ m' earlier', (m' :: earlier') <:+ earlier → ∀ id o,
      m'.after.store.output? id = some o →
      ∃ o', m.before.store.output? id = some o' ∧ o'.plan = o.plan :=
    fun _ _ hs' _ _ stored => run.output_kept_before keeps hs hs' stored
  cases keeps m earlier hs with
  | idle me past now hvalid => exact hbefore
  | own me past now next hvalid hdeed =>
    exact hdeed.consistent hash hdocuments hvalid history hbefore
  | received past now channel hvalid => exact ⟨hbefore.rendered, hbefore.unnamed⟩

/-- An output is made by one client only. -/
theorem made_once {me₁ me₂ : Client} {past₁ past₂ : List Moment} (hs₁ : past₁ <:+ past)
    (hs₂ : past₂ <:+ past) {b₁ b₂ : Blueprint} {id : String} {t₁ t₂ : Instant}
    (made₁ : me₁.Made settings answers past₁ b₁ id t₁)
    (made₂ : me₂.Made settings answers past₂ b₂ id t₂) : me₁ = me₂ := by
  obtain ⟨n₁, e₁, at₁, mover₁, -, free₁, stamp₁, stored₁⟩ := made₁
  obtain ⟨n₂, e₂, at₂, mover₂, -, free₂, stamp₂, stored₂⟩ := made₂
  have at₁ := at₁.trans hs₁
  have at₂ := at₂.trans hs₂
  -- of two moments the later one would find the output there
  have same : n₁ = n₂ := by
    rcases List.suffix_or_suffix_of_suffix at₁ at₂ with h | h
    · rcases List.suffix_cons_iff.mp h with heq | h
      · exact (List.cons.inj heq).1
      · obtain ⟨o, ho, -⟩ := run.output_kept_before keeps at₂ h stored₁
        simp [free₂] at ho
    · rcases List.suffix_cons_iff.mp h with heq | h
      · exact (List.cons.inj heq).1.symm
      · obtain ⟨o, ho, -⟩ := run.output_kept_before keeps at₁ h stored₂
        simp [free₁] at ho
  subst same
  exact Option.some.inj (mover₁.symm.trans mover₂)

theorem reports {m : Moment} (hm : m ∈ past) {me : Client} (mover : m.mover = some me)
    (submits : me.call.submits = true) : ∃ step : Step ServiceError Answer,
      step.Reports Failed me (fun answer own => ∃ b, answer = .blueprint b ∧ Dispatched b own)
        (me.own past) := by
  obtain ⟨step, sent⟩ := run.placed.2 m hm me mover
  refine ⟨step, run.accounts (fun m hm => ?_) sent (ServiceCall.accounts_request submits)⟩
  obtain ⟨earlier, hs⟩ := suffix_of_mem hm
  exact (keeps m earlier hs).valid.1.sound

/-- A client sends at most one message in all. -/
theorem sends_once {m : Moment} (hm : m ∈ past) {me : Client} (mover : m.mover = some me)
    (submits : me.call.submits = true) : ((me.own past).flatMap Moment.sent).length ≤ 1 := by
  obtain ⟨step, reports⟩ := run.reports keeps hm mover submits
  obtain ⟨earlier, hs⟩ := suffix_of_mem hm
  refine reports.soFar (fun own => (own.flatMap Moment.sent).length ≤ 1) (fun _ => trivial) ?_ ?_ ?_ ?_
    (keeps m earlier hs).valid.1.sound
  · intro m own h
    rw [List.flatMap_cons, List.length_append] at h
    omega
  · intro now own h
    rw [List.flatMap_cons, Moment.sent_of_channel_eq rfl, List.nil_append]
    exact h
  · intro e own h
    simp [h.sent]
  · intro answer own h
    obtain ⟨b, -, outputId, -, -, sent | ⟨sent, -⟩⟩ := h <;> simp [sent]

/-- No output is sent for twice: no two clients made one, and a client sends one message at most. -/
theorem sent_nodup : (past.flatMap Moment.sent).Nodup := by
  have sends {m : Moment} (hm : m ∈ past) {id : String} (hid : id ∈ m.sent) :
      ∃ (me : Client) (earlier : List Moment), m.mover = some me ∧ me.call.submits = true ∧
        earlier <:+ past ∧ ∃ b time, me.Made settings answers earlier b id time := by
    obtain ⟨earlier, hs⟩ := suffix_of_mem hm
    obtain ⟨me, b, mover, submits, made, -⟩ := (keeps m earlier hs).of_sent hid
    exact ⟨me, earlier, mover, submits, (List.suffix_cons m earlier).trans hs, made⟩
  have few {me : Client} {m : Moment} (hm : m ∈ past) (mover : m.mover = some me)
      (submits : me.call.submits = true) {ms : List Moment} (hms : ms.Sublist (me.own past)) :
      (ms.flatMap Moment.sent).length ≤ 1 :=
    Nat.le_trans (hms.flatMap Moment.sent).length_le (run.sends_once keeps hm mover submits)
  refine List.nodup_flatMap.mpr ⟨?_, List.pairwise_iff_forall_sublist.mpr ?_⟩
  · intro m hm
    rcases hsent : m.sent with _ | ⟨id, rest⟩
    · exact List.nodup_nil
    · obtain ⟨me, earlier, mover, submits, -⟩ := sends hm (hsent ▸ List.mem_cons_self)
      have own : m ∈ me.own past := List.mem_filter.mpr ⟨hm, by simp [mover]⟩
      have short := few hm mover submits (List.singleton_sublist.mpr own)
      rw [List.flatMap_singleton, hsent] at short
      rw [List.length_eq_zero_iff.mp (Nat.le_zero.mp (Nat.le_of_succ_le_succ short))]
      exact List.nodup_singleton id
  · intro m₂ m₁ both id hid₂ hid₁
    obtain ⟨me₁, e₁, mover₁, submits, hs₁, b₁, t₁, made₁⟩ := sends (both.subset (by simp)) hid₁
    obtain ⟨me₂, e₂, mover₂, -, hs₂, b₂, t₂, made₂⟩ := sends (both.subset (by simp)) hid₂
    obtain rfl := run.made_once keeps hs₁ hs₂ made₁ made₂
    -- the client would have sent twice
    have own : [m₂, m₁].Sublist (me₁.own past) := by
      have := both.filter fun m => m.mover = some me₁
      simpa [Client.own, mover₁, mover₂] using this
    have short := few (both.subset (by simp)) mover₁ submits own
    have pos₁ := List.length_pos_of_mem hid₁
    have pos₂ := List.length_pos_of_mem hid₂
    simp only [List.flatMap_cons, List.flatMap_nil, List.append_nil, List.length_append] at short
    omega

/-- What a message named is the output of a submitted blueprint. -/
theorem sent_named (hash : NoCollision settings answers past)
    (hdocuments : Sha256.Separates fun m => ∃ b, documents b ∧ m = b.content)
    (h : s.world.Consistent) {id : String} (hid : id ∈ past.flatMap Moment.sent) :
    ∃ b, s.world.Stores b ∧ b.isSubmitted = true ∧ b.outputId = some id := by
  obtain ⟨m, hm, hid⟩ := List.mem_flatMap.mp hid
  obtain ⟨earlier, hs⟩ := suffix_of_mem hm
  have keeps_m := keeps m earlier hs
  have grown := (List.suffix_cons m earlier).trans hs
  obtain ⟨me, b, -, -, -, took, submitted, named⟩ := keeps_m.of_sent hid
  obtain ⟨a, saw, looks, -⟩ := took.alike (hash.earlier grown) keeps_m.valid
  obtain ⟨n, hn, -, stored⟩ := saw
  obtain ⟨before, hbefore⟩ := suffix_of_mem hn
  -- what was stored then is still there, submitted with the same output
  obtain ⟨new, hnew, continues⟩ := run.continues hdocuments keeps (hbefore.trans grown) stored
  have stands := continues.stands ((Blueprint.isSubmitted_congr looks).trans submitted)
  obtain ⟨o, hid, -⟩ := h.rendered new hnew stands.submitted
  have output : a.outputId.getD "" = b.outputId.getD "" := congrArg Observation.outputId looks
  rw [← stands.outputId, hid, named, Option.getD_some, Option.getD_some] at output
  exact ⟨new, hnew, stands.submitted, output ▸ hid⟩

end Run

namespace Channel

theorem line_enqueue {c : Channel} (h : c.line = []) (outputId : String) :
    (c.enqueue outputId).2.line = [] := by
  unfold enqueue offer
  by_cases hopen : c.isOpen = true
  · by_cases room : c.buffer.length < c.capacity
    · simp [hopen, room, h]
    · simp [hopen, room, h, giveUp]
  · simp [hopen, h]

theorem receive_of_line_nil {c : Channel} (h : c.line = []) :
    c.receive.2.line = [] ∧ ∀ e ∈ c.receive.2.buffer, e ∈ c.buffer := by
  unfold receive
  cases hbuffer : c.buffer with
  | nil => simp [h, hbuffer]
  | cons e rest => simp_all [letIn]

end Channel

/-- A client leaves the channel alone or sends one message. -/
theorem Moment.Keeps.channel {m : Moment}
    (h : m.Keeps (.ofServices settings answers documents) past) (mover : m.mover ≠ none) :
    m.after.channel = m.before.channel ∨
      ∃ id, m.after.channel = (m.before.channel.enqueue id).2 := by
  cases h with
  | idle me past now hvalid => exact Or.inl rfl
  | received past now channel hvalid => exact absurd rfl mover
  | own me past now next hvalid hdeed =>
    cases hdeed with
    | rests filters outputs channel => exact Or.inl channel
    | creates b t version new free told instanceId confirmed published blank fresh kept =>
      exact Or.inl (by rw [kept])
    | edits a x c t e saw follows sees cleared found same justified applied changed kept =>
      exact Or.inl (by rw [kept])
    | works busy cleared filters work =>
      cases work with
      | makes b outputId t time stamp submits took free kept => exact Or.inl (by rw [kept])
      | tends id o o' t found same kept => exact Or.inl (by rw [kept])
      | sends b outputId submits made took submitted named kept =>
        exact Or.inr ⟨outputId, by rw [kept]⟩

/-- What is in the channel was sent in the run. -/
theorem Run.queued (run : Run settings answers start past s)
    (keeps : ∀ m earlier, (m :: earlier) <:+ past →
      m.Keeps (.ofServices settings answers documents) earlier)
    (buffer : start.channel.buffer = []) (line : start.channel.line = []) :
    s.world.channel.line = [] ∧
      ∀ e ∈ s.world.channel.buffer, e.outputId ∈ past.flatMap Moment.sent := by
  induction run with
  | start => exact ⟨line, by simp [buffer]⟩
  | @next past s s' mover run move ih =>
    obtain ⟨nobody, queued⟩ := ih fun m earlier h => keeps m earlier (h.trans (List.suffix_cons _ _))
    have kept {e : Envelope} (he : e ∈ s.world.channel.buffer) :
        e.outputId ∈ (⟨mover, s.world, s'.world⟩ :: past).flatMap Moment.sent := by
      rw [List.flatMap_cons]
      exact List.mem_append_right _ (queued e he)
    have client (hmover : mover ≠ none) : s'.world.channel.line = [] ∧ ∀ e ∈ s'.world.channel.buffer,
        e.outputId ∈ (⟨mover, s.world, s'.world⟩ :: past).flatMap Moment.sent := by
      rcases (keeps _ past (List.suffix_refl _)).channel hmover with same | ⟨id, sends⟩
      · simp only at same
        rw [same]
        exact ⟨nobody, fun e he => kept he⟩
      · simp only at sends
        refine ⟨sends ▸ Channel.line_enqueue nobody id, ?_⟩
        intro e he
        rw [sends] at he
        rcases s.world.channel.enqueue_cases id with ⟨-, accepted⟩ | ⟨error, -, refused⟩
        · rw [accepted] at he
          rcases List.mem_append.mp he with he | he
          · exact kept he
          · obtain ⟨me, rfl⟩ := Option.ne_none_iff_exists'.mp hmover
            rw [List.flatMap_cons]
            refine List.mem_append_left _ ?_
            rw [List.mem_singleton.mp he]
            simp [Moment.sent, sends, accepted]
        · rw [refused] at he
          exact kept he
    cases move with
    | enter caller call => exact client (by simp)
    | goOn i task step hi hr => exact client (by simp)
    | receive =>
      obtain ⟨none, within⟩ := Channel.receive_of_line_nil nobody
      exact ⟨none, fun e he => kept (within e he)⟩
    | close => exact ⟨rfl, fun e he => by simp [Channel.close] at he⟩

/-- A world without documents and messages. -/
structure World.Empty (w : World) : Prop where
  filters : w.store.backend.filters = []
  outputs : w.store.backend.outputs = []
  buffer : w.channel.buffer = []
  line : w.channel.line = []

/-- How submissions stand after some moments of a run. -/
structure Server.Submissions (s : Server) (past : List Moment) : Prop extends s.world.Consistent where
  /-- No two blueprints name the same output. -/
  apart : ∀ b b' id, s.world.Stores b → s.world.Stores b' → b.outputId = some id →
    b'.outputId = some id → b = b'
  sent : ∀ id ∈ past.flatMap Moment.sent,
    ∃ b, s.world.Stores b ∧ b.isSubmitted = true ∧ b.outputId = some id
  once : (past.flatMap Moment.sent).Nodup
  queued : ∀ e ∈ s.world.channel.buffer, e.outputId ∈ past.flatMap Moment.sent
  failed : ∀ task ∈ s.tasks, task.client.call.submits = true →
    ∀ error w, task.step = .done (.error error) w → Failed (task.client.own past)
  succeeded : ∀ task ∈ s.tasks, task.client.call.submits = true →
    ∀ answer w, task.step = .done (.ok answer) w →
      ∃ b, answer = .blueprint b ∧ Dispatched b (task.client.own past)

/-- In a run that starts without documents and messages, whatever fails and however requests come in
between each other, submissions stand as they should at all times. -/
theorem Run.submissions (empty : start.Empty) (run : Run settings answers start past s)
    (hash : NoCollision settings answers past) : s.Submissions past := by
  obtain ⟨hvalid, -, keeps⟩ := run.sound_services empty.filters hash.collisionless
  have nothing {b : Blueprint} (hb : start.Stores b) : False := by
    simp [World.Stores, Store.filter?_of_empty empty.filters] at hb
  have consistent := run.consistent keeps hash hash.collisionless
    ⟨fun b hb => (nothing hb).elim, fun b hb => (nothing hb).elim⟩
  have reports {task : Task} (sent : task ∈ s.tasks) (submits : task.client.call.submits = true) :
      task.step.Reports Failed task.client
        (fun answer own => ∃ b, answer = .blueprint b ∧ Dispatched b own)
        (task.client.own past) := by
    obtain ⟨i, hi⟩ := List.mem_iff_getElem?.mp sent
    obtain rfl := run.placed.1 i task hi
    refine run.accounts (fun m hm => ?_) hi (ServiceCall.accounts_request submits)
    obtain ⟨earlier, hs⟩ := suffix_of_mem hm
    exact (keeps m earlier hs).valid.1.sound
  refine { toConsistent := consistent, apart := ?_, sent := ?_, once := run.sent_nodup keeps,
           queued := (run.queued keeps empty.buffer empty.line).2, failed := ?_, succeeded := ?_ }
  · -- both are what the output was made of
    intro b b' id hb hb' named named'
    have submitted {b : Blueprint} (hb : s.world.Stores b) (named : b.outputId = some id) :
        ∃ o, s.world.store.output? id = some o ∧ o.filterId = b.id := by
      cases state : b.isSubmitted with
      | false => simp [consistent.unnamed b hb state] at named
      | true =>
        obtain ⟨o, named', stored, renders⟩ := consistent.rendered b hb state
        obtain rfl := Option.some.inj (named.symm.trans named')
        exact ⟨o, stored, renders.filterId⟩
    obtain ⟨o, ho, hid⟩ := submitted hb named
    obtain ⟨o', ho', hid'⟩ := submitted hb' named'
    obtain rfl := Option.some.inj (ho.symm.trans ho')
    exact hb.unique hb' (hid.symm.trans hid')
  · intro id hid
    exact run.sent_named keeps hash hash.collisionless consistent hid
  · intro task sent submits error w done
    have reported := reports sent submits
    rw [done] at reported
    obtain ⟨now, own, heq, failed⟩ := reported
    rw [heq]
    exact failed.rests ⟨rfl, rfl, rfl⟩
  · intro task sent submits answer w done
    have reported := reports sent submits
    rw [done] at reported
    obtain ⟨now, own, heq, b, same, dispatched⟩ := reported
    rw [heq]
    exact ⟨b, same, dispatched.rests ⟨rfl, rfl, rfl⟩⟩

end

namespace Small.Move

theorem submitted_rendered :
    ∃ s, Run settings answers world moments s ∧ (moments.flatMap Moment.sent).Nodup ∧
      (∃ o, o.id = "o" ∧ s.world.store.output? "o" = some o ∧ o.Renders submitted) ∧
      ∀ task ∈ s.tasks, task.client.call.submits = true → ∀ error w,
        task.step = .done (.error error) w → Failed (task.client.own moments) := by
  obtain ⟨s, run, -, stored⟩ := run answers_reply
  have submissions := Run.submissions ⟨rfl, rfl, rfl, rfl⟩ run noCollision
  obtain ⟨o, named, kept, renders⟩ := submissions.rendered submitted stored rfl
  have hid : o.id = "o" := (Option.some.inj named).symm
  exact ⟨s, run, submissions.once, ⟨o, hid, hid ▸ kept, renders⟩, submissions.failed⟩

end Small.Move

end DatasetFilters
