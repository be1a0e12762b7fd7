import DatasetFilters.Proofs.Queue.Traffic

namespace DatasetFilters

/-- Relaying one list after another is relaying both. -/
theorem relay_append (sink : Sink σ) (first later : List Envelope) (state : σ) :
    relay sink (first ++ later) state =
      ((relay sink first state).1 + (relay sink later (relay sink first state).2).1,
        (relay sink later (relay sink first state).2).2) := by
  induction first generalizing state with
  | nil => simp [relay]
  | cons e rest ih =>
    simp only [List.cons_append, relay, ih]
    cases (sink e state).1 with
    | ok _ => simp only [Prod.mk.injEq, and_true]; omega
    | error _ => rfl

namespace Traffic

variable {opened : Channel} {s s' : Traffic σ}

/-- What has come out to one taker. -/
def takenBy (s : Traffic σ) (taker : Taker) : List Envelope :=
  (s.receipts.filter (·.1 = taker)).map (·.2)

/-- The relay has offered what it took, and has counted what the sink took. -/
structure Relayed (sink : Sink σ) (state : σ) (s : Traffic σ) : Prop where
  offered : s.offered.map (·.1) = s.takenBy .relay
  relayed : relay sink (s.offered.map (·.1)) state = (s.delivered, s.sink)
  counted : s.delivered = s.offered.countP (·.2.isOk)
  ended : ∀ n, s.result = some n → n = s.delivered ∧ s.abandoned = some []

variable {sink : Sink σ} {state : σ}

theorem relayed_start (topic : String) (capacity sendTimeout : Nat) :
    (start topic capacity sendTimeout state).Relayed sink state := by
  constructor <;> simp [start, takenBy, relay]

/-- One message more has been handed on, and the count agrees, whatever the sink made of it. -/
theorem Relayed.handOn (h : s.Relayed sink state) (present : s.abandoned = none)
    (taken : s.take .relay = some (e, s')) : (s'.handOn sink e).Relayed sink state := by
  obtain ⟨receipts, offered, delivered, sinkState, abandoned, result, -⟩ := take_frame taken
  have ended : s'.result = none := by
    cases returned : s'.result with
    | none => rfl
    | some n => simp [(h.ended n (result ▸ returned)).2] at present
  constructor
  · simp [Traffic.handOn, takenBy, receipts, offered, h.offered]
  · simp only [Traffic.handOn, offered, List.map_append, List.map_cons, List.map_nil, relay_append,
      h.relayed, sinkState, delivered]
    cases reply : (sink e s.sink).1 <;> simp [relay, reply]
  · simp only [Traffic.handOn, offered, delivered, sinkState, List.countP_append,
      List.countP_singleton, h.counted]
    cases reply : (sink e s.sink).1 <;> simp [Except.isOk, Except.toBool]
  · simp [Traffic.handOn, ended]

/-- The relay returns only when nothing is left to hand on. -/
theorem relayNext_cases (kept : s.Kept opened) (next : s.relayNext sink = some s') :
    (∃ e s₁, s.take .relay = some (e, s₁)) ∨
      (s.channel.buffer = [] ∧ (s.producers = 0 ∨ s.channel.isOpen = false) ∧
        s' = { s.drop with result := some s.delivered }) := by
  unfold relayNext at next
  rcases kept.take_cases .relay with ⟨buffer, none⟩ | ⟨e, rest, -, ⟨-, some⟩ | ⟨_, _, _, -, some⟩⟩
  · rw [none] at next
    dsimp only at next
    split at next
    · next ended => exact .inr ⟨buffer, ended, (Option.some.inj next).symm⟩
    · cases next
  · exact .inl ⟨_, _, some⟩
  · exact .inl ⟨_, _, some⟩

/-- No turn breaks the agreement of the channel, the senders and the receipts. -/
theorem Kept.step (h : s.Kept opened) (next : s.step sink turn = some s') : s'.Kept opened := by
  cases turn with
  | clone =>
    obtain ⟨handle, same⟩ := Option.ite_none_right_eq_some.1 next
    cases same
    exact { __ := h, left := fun nobody => absurd nobody (Nat.succ_ne_zero _) }
  | leave =>
    obtain ⟨handles, same⟩ := Option.ite_none_right_eq_some.1 next
    cases same
    refine { __ := h, left := fun nobody => ?_ }
    rcases handles with more | ⟨-, line⟩
    · simp only at nobody; omega
    · exact line
  | send outputId =>
    obtain ⟨handle, same⟩ := Option.ite_none_right_eq_some.1 next
    cases same
    exact h.send handle outputId
  | giveUp ticket => cases next; exact h.giveUp ticket
  | receive =>
    obtain ⟨present, came⟩ := Option.ite_none_right_eq_some.1 next
    obtain ⟨⟨e, _⟩, taken, rfl⟩ := Option.map_eq_some_iff.1 came
    exact h.take (by simpa using present) taken
  | relay =>
    obtain ⟨present, next⟩ := Option.ite_none_right_eq_some.1 next
    have present : s.abandoned = none := by simpa using present
    rcases relayNext_cases h next with ⟨e, s₁, taken⟩ | ⟨-, -, rfl⟩
    · simp only [relayNext, taken, Option.some.injEq] at next
      subst next
      exact (h.take present taken).handOn
    · exact { __ := h.drop present }
  | shut =>
    obtain ⟨present, same⟩ := Option.ite_none_right_eq_some.1 next
    cases same
    exact h.shut
  | drop =>
    obtain ⟨present, same⟩ := Option.ite_none_right_eq_some.1 next
    cases same
    exact h.drop (by simpa using present)

/-- No turn breaks the relay's account of what it took. -/
theorem Relayed.step (kept : s.Kept opened) (h : s.Relayed sink state)
    (next : s.step sink turn = some s') : s'.Relayed sink state := by
  cases turn with
  | clone => cases (Option.ite_none_right_eq_some.1 next).2; exact { __ := h }
  | leave => cases (Option.ite_none_right_eq_some.1 next).2; exact { __ := h }
  | send outputId =>
    cases (Option.ite_none_right_eq_some.1 next).2
    unfold send
    rcases s.channel.offer_cases outputId with ⟨-, offer⟩ | ⟨-, -, -, offer⟩ | ⟨-, offer⟩ <;>
      rw [offer] <;> exact { __ := h }
  | giveUp ticket => cases next; exact { __ := h }
  | receive =>
    obtain ⟨-, came⟩ := Option.ite_none_right_eq_some.1 next
    obtain ⟨⟨e, _⟩, taken, rfl⟩ := Option.map_eq_some_iff.1 came
    obtain ⟨receipts, offered, delivered, sinkState, abandoned, result, -⟩ := take_frame taken
    constructor
    · simpa [offered, takenBy, receipts] using h.offered
    · simpa [offered, delivered, sinkState] using h.relayed
    · simpa [offered, delivered] using h.counted
    · simpa [result, delivered, abandoned] using h.ended
  | relay =>
    obtain ⟨present, next⟩ := Option.ite_none_right_eq_some.1 next
    have present : s.abandoned = none := by simpa using present
    rcases relayNext_cases kept next with ⟨e, s₁, taken⟩ | ⟨buffer, -, rfl⟩
    · simp only [relayNext, taken, Option.some.injEq] at next
      subst next
      exact h.handOn present taken
    · refine { __ := h, ended := fun n returned => ?_ }
      exact ⟨(Option.some.inj returned).symm, by simp [drop, buffer]⟩
  | shut => cases (Option.ite_none_right_eq_some.1 next).2; exact { __ := h }
  | drop =>
    obtain ⟨present, same⟩ := Option.ite_none_right_eq_some.1 next
    cases same
    refine { __ := h, ended := fun n returned => ?_ }
    simp [(h.ended n returned).2] at present

/-- A turn adds attempts or tells the senders of some; it does neither to what is on record. -/
theorem attempts_step (next : s.step sink turn = some s') :
    (∃ more, s'.attempts = s.attempts ++ more) ∨
      ∃ which reply, s'.attempts = s.attempts.map (·.answer which reply) := by
  have taking {taker e} {s₁ : Traffic σ} (taken : s.take taker = some (e, s₁)) :
      (∃ more, s₁.attempts = s.attempts ++ more) ∨
        ∃ which reply, s₁.attempts = s.attempts.map (·.answer which reply) := by
    unfold take at taken
    split at taken
    · cases taken
    split at taken <;> cases taken
    · exact .inl ⟨[], (List.append_nil _).symm⟩
    split
    · exact .inr ⟨_, _, rfl⟩
    · exact .inl ⟨[], (List.append_nil _).symm⟩
  cases turn with
  | clone =>
    cases (Option.ite_none_right_eq_some.1 next).2
    exact .inl ⟨[], (List.append_nil _).symm⟩
  | leave =>
    cases (Option.ite_none_right_eq_some.1 next).2
    exact .inl ⟨[], (List.append_nil _).symm⟩
  | send outputId =>
    cases (Option.ite_none_right_eq_some.1 next).2
    unfold send
    rcases s.channel.offer_cases outputId with ⟨-, offer⟩ | ⟨-, -, -, offer⟩ | ⟨-, offer⟩ <;>
      rw [offer] <;> exact .inl ⟨_, rfl⟩
  | giveUp ticket => cases next; exact .inr ⟨_, _, rfl⟩
  | receive =>
    obtain ⟨⟨e, _⟩, taken, rfl⟩ := Option.map_eq_some_iff.1 (Option.ite_none_right_eq_some.1 next).2
    exact taking taken
  | relay =>
    have next := (Option.ite_none_right_eq_some.1 next).2
    unfold relayNext at next
    split at next
    · next taken => cases next; exact (taking taken :)
    · split at next <;> cases next
      exact .inr ⟨_, _, rfl⟩
  | shut => cases (Option.ite_none_right_eq_some.1 next).2; exact .inr ⟨_, _, rfl⟩
  | drop => cases (Option.ite_none_right_eq_some.1 next).2; exact .inr ⟨_, _, rfl⟩

/-- What a sender has been told stands. -/
theorem told_step {a : Attempt} {i : Nat} (found : s.attempts[i]? = some a)
    (told : a.standing = .told reply) (next : s.step sink turn = some s') :
    s'.attempts[i]? = some a := by
  rcases attempts_step next with ⟨more, same⟩ | ⟨which, answer, same⟩ <;> rw [same]
  · rw [List.getElem?_append_left (List.getElem?_eq_some_iff.1 found).1, found]
  · simp [found, Attempt.answer_of_told told]

theorem told_run {a : Attempt} {i : Nat} (found : s.attempts[i]? = some a)
    (told : a.standing = .told reply) (ran : s.run sink turns = some s') :
    s'.attempts[i]? = some a := by
  induction turns generalizing s with
  | nil => cases ran; exact found
  | cons turn turns ih =>
    obtain ⟨s₁, next, rest⟩ := Option.bind_eq_some_iff.1 ran
    exact ih (told_step found told next) rest

/-- Every run keeps the channel and the relay in line. -/
theorem run_sound (kept : s.Kept opened) (relayed : s.Relayed sink state)
    (ran : s.run sink turns = some s') : s'.Kept opened ∧ s'.Relayed sink state := by
  induction turns generalizing s with
  | nil => cases ran; exact ⟨kept, relayed⟩
  | cons turn turns ih =>
    obtain ⟨s₁, next, rest⟩ := Option.bind_eq_some_iff.1 ran
    exact ih (kept.step next) (relayed.step kept next) rest

/-- While the receiver is there and has not been closed, the channel is open, and the relay goes
on. -/
structure Going (s : Traffic σ) : Prop where
  isOpen : s.abandoned = none → s.channel.isOpen = true
  returned : s.result ≠ none → s.producers = 0

/-- As long as nobody shuts the receiver, one turn leaves the channel open. -/
theorem Going.step (kept : s.Kept opened) (h : s.Going) (other : turn ≠ .shut)
    (next : s.step sink turn = some s') : s'.Going := by
  have taking {taker e} {s₁ : Traffic σ} (taken : s.take taker = some (e, s₁)) : s₁.Going := by
    rcases kept.take_cases taker with ⟨-, none⟩ | ⟨_, _, _, ⟨-, some⟩ | ⟨_, _, _, -, some⟩⟩
    · cases none.symm.trans taken
    · cases some.symm.trans taken; exact { __ := h }
    · cases some.symm.trans taken; exact { __ := h }
  cases turn with
  | clone =>
    obtain ⟨handle, same⟩ := Option.ite_none_right_eq_some.1 next
    cases same
    refine { __ := h, returned := fun returned => ?_ }
    exact absurd (h.returned returned) (Nat.ne_of_gt handle)
  | leave =>
    cases (Option.ite_none_right_eq_some.1 next).2
    exact { __ := h, returned := fun returned => by simp [h.returned returned] }
  | send outputId =>
    cases (Option.ite_none_right_eq_some.1 next).2
    unfold send
    rcases s.channel.offer_cases outputId with ⟨-, offer⟩ | ⟨-, -, -, offer⟩ | ⟨-, offer⟩ <;>
      rw [offer] <;> exact { __ := h }
  | giveUp ticket => cases next; exact { __ := h }
  | receive =>
    obtain ⟨⟨e, _⟩, taken, rfl⟩ := Option.map_eq_some_iff.1 (Option.ite_none_right_eq_some.1 next).2
    exact taking taken
  | relay =>
    obtain ⟨present, next⟩ := Option.ite_none_right_eq_some.1 next
    rcases relayNext_cases kept next with ⟨e, s₁, taken⟩ | ⟨-, ended, rfl⟩
    · simp only [relayNext, taken, Option.some.injEq] at next
      subst next
      exact { __ := taking taken }
    · have isOpen := h.isOpen (by simpa using present)
      exact ⟨nofun, fun _ => ended.resolve_right (by simp [isOpen])⟩
  | shut => exact absurd rfl other
  | drop =>
    cases (Option.ite_none_right_eq_some.1 next).2
    exact ⟨nofun, h.returned⟩

theorem Going.run (kept : s.Kept opened) (h : s.Going) (other : Turn.shut ∉ turns)
    (ran : s.run sink turns = some s') : s'.Going := by
  induction turns generalizing s with
  | nil => cases ran; exact h
  | cons turn turns ih =>
    obtain ⟨s₁, next, rest⟩ := Option.bind_eq_some_iff.1 ran
    have apart := not_or.1 (mt List.mem_cons.2 other)
    exact ih (kept.step next) (h.step kept (Ne.symm apart.1) next) apart.2 rest

variable (sink) in
/-- Once no producer is left, the relay hands on what is held, message by message, and returns. -/
theorem Kept.relay_returns (h : s.Kept opened) (present : s.abandoned = none)
    (nobody : s.producers = 0) :
    ∃ last, s.run sink (List.replicate (s.channel.buffer.length + 1) .relay) = some last ∧
      last.result = some (s.delivered + (relay sink s.channel.buffer s.sink).1) := by
  generalize held : s.channel.buffer = messages
  induction messages generalizing s with
  | nil =>
    refine ⟨{ s.drop with result := some s.delivered }, ?_, rfl⟩
    rcases h.take_cases .relay with ⟨-, nothing⟩ | ⟨e, rest, buffer, -⟩
    · simp [Traffic.run, Traffic.step, present, relayNext, nothing, nobody]
    · simp [held] at buffer
  | cons e rest ih =>
    rcases h.take_cases .relay with
      ⟨buffer, -⟩ | ⟨e', rest', buffer, ⟨-, taken⟩ | ⟨_, _, _, line, -⟩⟩
    · simp [held] at buffer
    · rw [held] at buffer
      cases buffer
      have next : s.step sink .relay = some (Traffic.handOn sink { s with
          channel := { s.channel with buffer := rest }
          receipts := s.receipts ++ [(.relay, e)] } e) := by
        simp [Traffic.step, present, relayNext, taken]
      obtain ⟨last, ran, result⟩ :=
        ih (h.take present taken).handOn present nobody rfl
      refine ⟨last, ?_, ?_⟩
      · rw [List.length_cons, List.replicate_succ, Traffic.run, next]
        exact ran
      · rw [result]
        simp only [Traffic.handOn, relay]
        cases (sink e s.sink).1 with
        | ok _ => simp only [Option.some.injEq]; omega
        | error _ => rfl
    · simp [h.left nobody] at line

/-- What `enqueue` does while nobody receives is an attempt that waits in vain, if it waits. -/
theorem Kept.run_enqueue (h : s.Kept opened) (handle : 0 < s.producers) (outputId : String) :
    ∃ turns s', s.run sink turns = some s' ∧ s'.channel = (s.channel.enqueue outputId).2 ∧
      s'.attempts = s.attempts ++ [⟨outputId, .told (s.channel.enqueue outputId).1⟩] := by
  have sent : s.step sink (.send outputId) = some (s.send outputId) := by
    simp [Traffic.step, handle]
  rcases s.channel.offer_cases outputId with ⟨-, offer⟩ | ⟨-, -, -, offer⟩ | ⟨-, offer⟩
  · refine ⟨[.send outputId], _, by rw [Traffic.run, sent]; rfl, ?_⟩
    simp [Traffic.send, Channel.enqueue, offer]
  · refine ⟨[.send outputId], _, by rw [Traffic.run, sent]; rfl, ?_⟩
    simp [Traffic.send, Channel.enqueue, offer]
  · refine ⟨[.send outputId, .giveUp s.channel.nextTicket], _, by rw [Traffic.run, sent]; rfl, ?_⟩
    -- Nobody else waits with the new ticket.
    have others : s.attempts.map (·.answer (· == s.channel.nextTicket)
        (.error (.timeout s.channel.sendTimeout))) = s.attempts := by
      refine (List.map_congr_left fun a known => ?_).trans (List.map_id _)
      unfold Attempt.answer
      split
      · next ticket waits =>
        have inLine : (ticket, (⟨opened.topic, a.outputId⟩ : Envelope)) ∈ s.channel.line :=
          h.line ▸ List.mem_filterMap.2 ⟨a, known, Attempt.place?_eq_some.2 ⟨waits, rfl⟩⟩
        simp [Nat.ne_of_lt (h.fresh _ inLine)]
      · rfl
    simp only [Traffic.send, Channel.enqueue, offer, Traffic.giveUp, Traffic.answer,
      List.map_append, others]
    exact ⟨trivial, by simp [Attempt.answer]⟩

/-- The channel loses, doubles and reorders nothing, whatever the turns. What came out and what is
still held are the accepted messages in the order of acceptance, each accepted once; what was held
when the receiver went away is counted among them. No more is held than there is room for. Who was
told of a failure was not accepted, is told nothing else, and is not accepted later. The relay has
offered what it took, once and in that order, and counts what the sink took. It returns when nothing
is left and nobody can send any more, and as soon as that is so. -/
theorem run_conserves (sink : Sink σ) (state : σ) (topic : String) (capacity sendTimeout : Nat)
    (turns : List Turn) (s : Traffic σ)
    (ran : (start topic capacity sendTimeout state).run sink turns = some s) :
    (s.abandoned = none → s.received ++ s.channel.buffer = s.accepted.map (·.2)) ∧
    (∀ left, s.abandoned = some left →
      s.channel.buffer = [] ∧ s.received ++ left = s.accepted.map (·.2)) ∧
    (s.accepted.map (·.1)).Nodup ∧
    (∀ number e, (number, e) ∈ s.accepted ↔ ∃ a, s.attempts[number]? = some a ∧
      a.standing = .told (.ok ()) ∧ e = ⟨topic, a.outputId⟩) ∧
    s.channel.buffer.length ≤ max capacity 1 ∧
    (∀ number a error, s.attempts[number]? = some a → a.standing = .told (.error error) →
      (error = .closed ∨ error = .timeout sendTimeout) ∧
      ∀ later s', s.run sink later = some s' →
        s'.attempts[number]? = some a ∧ ∀ e, (number, e) ∉ s'.accepted) ∧
    s.offered.map (·.1) = s.takenBy .relay ∧
    relay sink (s.offered.map (·.1)) state = (s.offered.countP (·.2.isOk), s.sink) ∧
    (∀ n, s.result = some n →
      s.received = s.accepted.map (·.2) ∧ n = s.offered.countP (·.2.isOk) ∧
      (Turn.shut ∉ turns → s.producers = 0)) ∧
    (s.producers = 0 → s.abandoned = none →
      ∃ last n, s.run sink (List.replicate (s.channel.buffer.length + 1) .relay) = some last ∧
        last.result = some n) := by
  obtain ⟨kept, relayed⟩ :=
    run_sound (kept_start topic capacity sendTimeout state) (relayed_start ..) ran
  have conserved := kept.conserved
  refine ⟨fun present => ?_, fun left away => ?_, kept.once, kept.accepted, kept.bounded,
    fun number a error found told => ⟨?_, fun later s' ran' => ?_⟩, relayed.offered, ?_,
    fun n returned => ?_, fun nobody present => ?_⟩
  · simpa [held, present] using conserved
  · exact ⟨(kept.gone (by simp [away])).1, by simpa [held, away] using conserved⟩
  · exact kept.refused a (List.mem_of_getElem? found) error told
  · have stands := told_run found told ran'
    refine ⟨stands, fun e member => ?_⟩
    obtain ⟨kept', -⟩ := run_sound kept relayed ran'
    obtain ⟨b, found', told', -⟩ := (kept'.accepted number e).1 member
    cases stands.symm.trans found'
    cases told.symm.trans told'
  · rw [relayed.relayed, relayed.counted]
  · obtain ⟨same, away⟩ := relayed.ended n returned
    refine ⟨by simpa [held, away] using conserved, same.trans relayed.counted, fun other => ?_⟩
    have going : (start topic capacity sendTimeout state).Going :=
      ⟨fun _ => rfl, fun returned => absurd rfl returned⟩
    exact (going.run (kept_start ..) other ran).returned (by simp [returned])
  · obtain ⟨last, ran', result⟩ := kept.relay_returns sink present nobody
    exact ⟨last, _, ran', result⟩

/-- A sink that counts what it takes, and takes all but one message. -/
def picky : Sink Nat := fun e n =>
  if e.outputId = "c" then (.error (.delivery "rejected"), n) else (.ok (), n + 1)

/-- Three attempts wait in line for one place: the first gives up, the second is let in by a reader,
the third by the relay, which then is left alone. -/
def crowded : List Turn :=
  [.clone, .send "a", .send "b", .send "c", .giveUp 0, .receive, .send "d", .relay, .leave, .leave,
    .relay, .relay]

theorem run_conserves_crowded : ∃ s, (start "t" 0 20 0).run picky crowded = some s ∧
    s.received = [⟨"t", "a"⟩, ⟨"t", "c"⟩, ⟨"t", "d"⟩] ∧
    s.offered.map (·.1) = [⟨"t", "c"⟩, ⟨"t", "d"⟩] ∧ s.result = some 1 ∧
    s.received = s.accepted.map (·.2) ∧ s.offered.map (·.1) = s.takenBy .relay ∧
    relay picky (s.offered.map (·.1)) 0 = (1, s.sink) ∧ 1 = s.offered.countP (·.2.isOk) := by
  obtain ⟨s, ran⟩ := Option.isSome_iff_exists.1
    (show ((start "t" 0 20 0).run picky crowded).isSome = true from rfl)
  have seen : ((start "t" 0 20 0).run picky crowded).map
      (fun s => (s.received, s.offered.map (·.1), s.result)) =
    some ([⟨"t", "a"⟩, ⟨"t", "c"⟩, ⟨"t", "d"⟩], [⟨"t", "c"⟩, ⟨"t", "d"⟩], some 1) := rfl
  simp only [ran, Option.map_some, Option.some.injEq, Prod.mk.injEq] at seen
  obtain ⟨received, passed, result⟩ := seen
  obtain ⟨-, -, -, -, -, -, offered, relayed, returned, -⟩ :=
    run_conserves picky 0 "t" 0 20 crowded s ran
  obtain ⟨all, count, -⟩ := returned 1 result
  exact ⟨s, ran, received, passed, result, all, offered, count ▸ relayed, count⟩

end Traffic

end DatasetFilters
