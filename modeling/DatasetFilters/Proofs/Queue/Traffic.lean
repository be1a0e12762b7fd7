import DatasetFilters.Queue.Channel
import Mathlib.Data.List.Nodup

namespace DatasetFilters

namespace Channel

/-- The receiver takes in no more. What was accepted can still be received, and who waits is
refused. -/
def shut (c : Channel) : Channel := { c with line := [], isOpen := false }

/-- A message is refused, accepted, or has to wait in line. -/
theorem offer_cases (c : Channel) (outputId : String) :
    (c.isOpen = false ∧ c.offer outputId = (.refused, c)) ∨
    (c.isOpen = true ∧ c.buffer.length < c.capacity ∧ c.line = [] ∧
      c.offer outputId = (.accepted, { c with buffer := c.buffer ++ [⟨c.topic, outputId⟩] })) ∨
    (c.isOpen = true ∧ c.offer outputId = (.waits c.nextTicket, { c with
      line := c.line ++ [(c.nextTicket, ⟨c.topic, outputId⟩)]
      nextTicket := c.nextTicket + 1 })) := by
  unfold offer
  cases isOpen : c.isOpen with
  | false => exact .inl ⟨rfl, rfl⟩
  | true =>
    by_cases room : (decide (c.buffer.length < c.capacity) && c.line.isEmpty) = true
    · have parts := room
      simp only [Bool.and_eq_true, decide_eq_true_eq, List.isEmpty_iff] at parts
      exact .inr (.inl ⟨rfl, parts.1, parts.2, by simp [room]⟩)
    · exact .inr (.inr ⟨rfl, by simp [room]⟩)

/-- Room for one more is there once a message has come out, so the first in line is let in. -/
theorem receive_cases {c : Channel} (bounded : c.buffer.length ≤ c.capacity) :
    (c.buffer = [] ∧ c.receive = (none, c)) ∨
    ∃ e rest, c.buffer = e :: rest ∧
      ((c.line = [] ∧ c.receive = (some e, { c with buffer := rest })) ∨
        ∃ ticket waiting later, c.line = (ticket, waiting) :: later ∧
          c.receive = (some e, { c with buffer := rest ++ [waiting], line := later })) := by
  unfold receive
  cases buffer : c.buffer with
  | nil => exact .inl ⟨rfl, rfl⟩
  | cons e rest =>
    have room : rest.length < c.capacity := by simpa [buffer, Nat.succ_le_iff] using bounded
    refine .inr ⟨e, rest, rfl, ?_⟩
    cases c.line with
    | nil => exact .inl ⟨rfl, by simp [letIn]⟩
    | cons first later => exact .inr ⟨first.1, first.2, later, rfl, by simp [letIn, room]⟩

end Channel

/-- How an attempt to send stands: it waits in line, or its sender has been told. -/
inductive Standing where
  | waits (ticket : Nat)
  | told (reply : Except QueueError Unit)

structure Attempt where
  outputId : String
  standing : Standing

namespace Attempt

/-- The place in line of an attempt that waits. -/
def place? (topic : String) (a : Attempt) : Option (Nat × Envelope) :=
  match a.standing with
  | .waits ticket => some (ticket, ⟨topic, a.outputId⟩)
  | .told _ => none

theorem place?_eq_some {a : Attempt} :
    a.place? topic = some (ticket, e) ↔ a.standing = .waits ticket ∧ e = ⟨topic, a.outputId⟩ := by
  obtain ⟨outputId, standing⟩ := a
  cases standing <;> simp [place?, eq_comm]

/-- The senders of these tickets are told. -/
def answer (which : Nat → Bool) (reply : Except QueueError Unit) (a : Attempt) : Attempt :=
  match a.standing with
  | .waits ticket => if which ticket then { a with standing := .told reply } else a
  | .told _ => a

@[simp] theorem answer_outputId : (answer which reply a).outputId = a.outputId := by
  unfold answer; grind

theorem answer_of_told {a : Attempt} (told : a.standing = .told reply) :
    a.answer which reply' = a := by
  simp [answer, told]

theorem place?_answer (topic : String) (which : Nat → Bool) (reply : Except QueueError Unit)
    (a : Attempt) :
    (a.answer which reply).place? topic = (a.place? topic).filter (!which ·.1) := by
  obtain ⟨outputId, standing⟩ := a
  cases standing with
  | told earlier => rfl
  | waits ticket => cases told : which ticket <;> simp [answer, place?, told, Option.filter_some]

/-- An attempt that has been told something now was told it before, or it held one of the
tickets. -/
theorem answer_standing_eq_told {a : Attempt} :
    (a.answer which reply).standing = .told said ↔
      a.standing = .told said ∨
        (said = reply ∧ ∃ ticket, a.standing = .waits ticket ∧ which ticket = true) := by
  obtain ⟨outputId, standing⟩ := a
  cases standing with
  | told earlier => simp [answer]
  | waits ticket => cases told : which ticket <;> simp [answer, told, eq_comm (a := said)]

end Attempt

/-- The line after some in it were told: those that are left, in their order. -/
theorem filterMap_place?_answer (topic : String) (which : Nat → Bool)
    (reply : Except QueueError Unit) (attempts : List Attempt) :
    (attempts.map (·.answer which reply)).filterMap (·.place? topic) =
      (attempts.filterMap (·.place? topic)).filter (!which ·.1) := by
  rw [List.filterMap_map, List.filter_filterMap]
  exact List.filterMap_congr fun a _ => Attempt.place?_answer topic which reply a

/-- The entries of a list with one more are those it had and the last. -/
theorem exists_getElem?_concat {P : α → Prop} (l : List α) (last : α) (i : Nat) :
    (∃ a, (l ++ [last])[i]? = some a ∧ P a) ↔
      (∃ a, l[i]? = some a ∧ P a) ∨ (i = l.length ∧ P last) := by
  rcases Nat.lt_trichotomy i l.length with before | rfl | after
  · simp [List.getElem?_append_left before, Nat.ne_of_lt before]
  · simp
  · have before : l[i]? = none := by simpa using Nat.le_of_lt after
    have beyond : (l ++ [last])[i]? = none := by simpa [Nat.succ_le_iff] using after
    simp [before, beyond, Nat.ne_of_gt after]

inductive Taker where
  | reader
  | relay
  deriving DecidableEq

/-- A channel in use by any number of producers, a reader and the relay, with all that has gone
through it. Attempts to send are numbered, so that two messages of one text are told apart. -/
structure Traffic (σ : Type) where
  channel : Channel
  /-- How many handles there are to send with. -/
  producers : Nat := 1
  /-- All attempts to send so far, by their number. -/
  attempts : List Attempt := []
  /-- Number and message of each accepted attempt, in the order of acceptance. -/
  accepted : List (Nat × Envelope) := []
  /-- What has come out, and who took it. -/
  receipts : List (Taker × Envelope) := []
  /-- What the relay has offered to the sink, and how the sink answered. -/
  offered : List (Envelope × Except QueueError Unit) := []
  delivered : Nat := 0
  sink : σ
  /-- What was still in the channel when the receiver went away, if it has. -/
  abandoned : Option (List Envelope) := none
  /-- What the relay has returned, if it has. -/
  result : Option Nat := none

/-- What may happen next. An attempt that waits gives up by its ticket; `shut` closes the receiver
and keeps it, `drop` does away with it. -/
inductive Turn where
  | clone
  | leave
  | send (outputId : String)
  | giveUp (ticket : Nat)
  | receive
  | relay
  | shut
  | drop

namespace Traffic

def start (topic : String) (capacity sendTimeout : Nat) (state : σ) : Traffic σ where
  channel := .create topic capacity sendTimeout
  sink := state

/-- The senders of these tickets are told. -/
def answer (s : Traffic σ) (which : Nat → Bool) (reply : Except QueueError Unit) : Traffic σ :=
  { s with attempts := s.attempts.map (·.answer which reply) }

def send (s : Traffic σ) (outputId : String) : Traffic σ :=
  match s.channel.offer outputId with
  | (.accepted, c) => { s with
      channel := c
      attempts := s.attempts ++ [⟨outputId, .told (.ok ())⟩]
      accepted := s.accepted ++ [(s.attempts.length, ⟨s.channel.topic, outputId⟩)] }
  | (.refused, c) => { s with
      channel := c
      attempts := s.attempts ++ [⟨outputId, .told (.error .closed)⟩] }
  | (.waits ticket, c) => { s with
      channel := c
      attempts := s.attempts ++ [⟨outputId, .waits ticket⟩] }

def giveUp (s : Traffic σ) (ticket : Nat) : Traffic σ :=
  { s.answer (· == ticket) (.error (.timeout s.channel.sendTimeout)) with
    channel := s.channel.giveUp ticket }

/-- The sender with this place in line has been let in. -/
def takeIn (s : Traffic σ) (ticket : Nat) (e : Envelope) : Traffic σ :=
  let number := s.attempts.findIdx fun a => a.place? s.channel.topic == some (ticket, e)
  { s.answer (· == ticket) (.ok ()) with accepted := s.accepted ++ [(number, e)] }

/-- A message comes out. Who was first in line and is in line no more has been let in. -/
def take (s : Traffic σ) (taker : Taker) : Option (Envelope × Traffic σ) :=
  match s.channel.receive with
  | (none, _) => none
  | (some e, c) =>
    let s' := { s with channel := c, receipts := s.receipts ++ [(taker, e)] }
    match s.channel.line with
    | [] => some (e, s')
    | (ticket, waiting) :: _ =>
      some (e, if c.line.length < s.channel.line.length then s'.takeIn ticket waiting else s')

/-- The receiver is closed, and kept to take what is left. -/
def shut (s : Traffic σ) : Traffic σ :=
  { s.answer (fun _ => true) (.error .closed) with channel := s.channel.shut }

/-- The receiver goes away, with what is left. -/
def drop (s : Traffic σ) : Traffic σ :=
  { s.answer (fun _ => true) (.error .closed) with
    channel := s.channel.close
    abandoned := some s.channel.buffer }

def handOn (sink : Sink σ) (s : Traffic σ) (e : Envelope) : Traffic σ :=
  let (reply, state) := sink e s.sink
  { s with
    offered := s.offered ++ [(e, reply)]
    sink := state
    delivered := match reply with | .ok _ => s.delivered + 1 | .error _ => s.delivered }

/-- The relay hands on the next message, whatever the sink makes of it. When nothing is left and
nothing can come any more, it returns, and the receiver goes with it. -/
def relayNext (sink : Sink σ) (s : Traffic σ) : Option (Traffic σ) :=
  match s.take .relay with
  | some (e, s) => some (s.handOn sink e)
  | none =>
    if s.producers = 0 ∨ s.channel.isOpen = false then
      some { s.drop with result := some s.delivered }
    else none

/-- One turn, where it is possible. Sending takes a handle, and the last handle is not gone before
each of its attempts has been told; receiving takes the receiver. -/
def step (sink : Sink σ) (s : Traffic σ) : Turn → Option (Traffic σ)
  | .clone => if 0 < s.producers then some { s with producers := s.producers + 1 } else none
  | .leave =>
    if 1 < s.producers ∨ s.producers = 1 ∧ s.channel.line = [] then
      some { s with producers := s.producers - 1 }
    else none
  | .send outputId => if 0 < s.producers then some (s.send outputId) else none
  | .giveUp ticket => some (s.giveUp ticket)
  | .receive => if s.abandoned.isNone then (s.take .reader).map (·.2) else none
  | .relay => if s.abandoned.isNone then s.relayNext sink else none
  | .shut => if s.abandoned.isNone then some s.shut else none
  | .drop => if s.abandoned.isNone then some s.drop else none

def run (sink : Sink σ) : Traffic σ → List Turn → Option (Traffic σ)
  | s, [] => some s
  | s, turn :: turns => (s.step sink turn).bind (run sink · turns)

def received (s : Traffic σ) : List Envelope := s.receipts.map (·.2)

/-- What the receiver still holds, or held when it went away. -/
def held (s : Traffic σ) : List Envelope := s.abandoned.getD s.channel.buffer

/-- The state of the channel agrees with what the senders were told and what came out: what came out
and what is still held are the accepted messages in the order of acceptance. -/
structure Kept (opened : Channel) (s : Traffic σ) : Prop where
  topic : s.channel.topic = opened.topic
  capacity : s.channel.capacity = opened.capacity
  sendTimeout : s.channel.sendTimeout = opened.sendTimeout
  bounded : s.channel.buffer.length ≤ opened.capacity
  line : s.channel.line = s.attempts.filterMap (·.place? opened.topic)
  tickets : (s.channel.line.map (·.1)).Nodup
  fresh : ∀ place ∈ s.channel.line, place.1 < s.channel.nextTicket
  once : (s.accepted.map (·.1)).Nodup
  accepted : ∀ i e, (i, e) ∈ s.accepted ↔ ∃ a, s.attempts[i]? = some a ∧
    a.standing = .told (.ok ()) ∧ e = ⟨opened.topic, a.outputId⟩
  refused : ∀ a ∈ s.attempts, ∀ error, a.standing = .told (.error error) →
    error = .closed ∨ error = .timeout opened.sendTimeout
  conserved : s.received ++ s.held = s.accepted.map (·.2)
  gone : s.abandoned ≠ none → s.channel.buffer = [] ∧ s.channel.isOpen = false
  closed : s.channel.isOpen = false → s.channel.line = []
  left : s.producers = 0 → s.channel.line = []

variable {opened : Channel} {s s' : Traffic σ}

theorem kept_start (topic : String) (capacity sendTimeout : Nat) (state : σ) :
    (start topic capacity sendTimeout state).Kept (.create topic capacity sendTimeout) := by
  constructor <;> simp [start, Channel.create, received, held]

/-- The numbers of the accepted attempts are numbers of attempts. -/
theorem Kept.number_lt (h : s.Kept opened) (member : p ∈ s.accepted) :
    p.1 < s.attempts.length := by
  obtain ⟨a, found, -, -⟩ := (h.accepted p.1 p.2).1 member
  exact (List.getElem?_eq_some_iff.1 found).1

/-- Whether it is accepted, refused or has to wait, another attempt is in line with what its sender
is told. -/
theorem Kept.send (h : s.Kept opened) (handle : 0 < s.producers) (outputId : String) :
    (s.send outputId).Kept opened := by
  unfold Traffic.send
  rcases s.channel.offer_cases outputId with
    ⟨-, offer⟩ | ⟨isOpen, room, nobody, offer⟩ | ⟨isOpen, offer⟩ <;> rw [offer]
  · exact {
      __ := h
      line := by simpa [Attempt.place?] using h.line
      accepted i e := by simp [exists_getElem?_concat, ← h.accepted]
      refused := by
        simp only [List.mem_append, List.mem_singleton]
        rintro a (earlier | rfl) error told
        · exact h.refused a earlier error told
        · cases told; exact .inl rfl }
  · exact {
      __ := h
      bounded := by simpa [← h.capacity] using Nat.succ_le_iff.2 room
      line := by simpa [Attempt.place?] using h.line
      once := by
        have new : ∀ p ∈ s.accepted, p.1 ≠ s.attempts.length := fun p hp =>
          Nat.ne_of_lt (h.number_lt hp)
        simp only [List.map_append, List.nodup_append, h.once]
        simpa using fun i e hp => new (i, e) hp
      accepted i e := by
        rw [exists_getElem?_concat, ← h.accepted]
        simp [h.topic]
      refused := by
        simp only [List.mem_append, List.mem_singleton]
        rintro a (earlier | rfl) error told
        · exact h.refused a earlier error told
        · cases told
      conserved := by
        have present : s.abandoned = none := by
          by_contra away
          simp [(h.gone away).2] at isOpen
        have conserved := h.conserved
        simp only [held, present, Option.getD_none, received] at conserved ⊢
        simp [← List.append_assoc, conserved]
      gone away := by simp [(h.gone away).2] at isOpen }
  · exact {
      __ := h
      line := by simp [Attempt.place?, h.line, h.topic]
      tickets := by
        have new : ∀ p ∈ s.channel.line, p.1 ≠ s.channel.nextTicket := fun p hp =>
          Nat.ne_of_lt (h.fresh p hp)
        simp only [List.map_append, List.nodup_append, h.tickets]
        simpa using fun ticket e hp => new (ticket, e) hp
      fresh := by
        simp only [List.mem_append, List.mem_singleton]
        rintro p (earlier | rfl)
        · exact Nat.lt_succ_of_lt (h.fresh p earlier)
        · exact Nat.lt_succ_self _
      accepted i e := by simp [exists_getElem?_concat, ← h.accepted]
      refused := by
        simp only [List.mem_append, List.mem_singleton]
        rintro a (earlier | rfl) error told
        · exact h.refused a earlier error told
        · cases told
      closed away := by simp [isOpen] at away
      left nobody := absurd nobody (Nat.ne_of_gt handle) }

/-- Who is told of a failure was not accepted, and is not from then on. -/
theorem Kept.accepted_answer (h : s.Kept opened) (which : Nat → Bool) (error : QueueError)
    (i : Nat) (e : Envelope) :
    (i, e) ∈ s.accepted ↔ ∃ a, (s.attempts.map (·.answer which (.error error)))[i]? = some a ∧
      a.standing = .told (.ok ()) ∧ e = ⟨opened.topic, a.outputId⟩ := by
  simp [h.accepted, Attempt.answer_standing_eq_told]

theorem Kept.refused_answer (h : s.Kept opened) (which : Nat → Bool)
    {reply : Except QueueError Unit}
    (known : ∀ error, reply = .error error →
      error = .closed ∨ error = .timeout opened.sendTimeout) :
    ∀ a ∈ s.attempts.map (·.answer which reply), ∀ error, a.standing = .told (.error error) →
      error = .closed ∨ error = .timeout opened.sendTimeout := by
  simp only [List.mem_map]
  rintro _ ⟨a, member, rfl⟩ error told
  rcases Attempt.answer_standing_eq_told.1 told with earlier | ⟨now, -⟩
  · exact h.refused a member error earlier
  · exact known error now.symm

theorem Kept.giveUp (h : s.Kept opened) (ticket : Nat) : (s.giveUp ticket).Kept opened where
  __ := h
  line := by
    simp only [Traffic.giveUp, Traffic.answer, Channel.giveUp, filterMap_place?_answer, ← h.line]
    rfl
  tickets := h.tickets.sublist (List.filter_sublist.map _)
  fresh place member := h.fresh place (List.mem_of_mem_filter member)
  accepted := h.accepted_answer _ _
  refused := h.refused_answer _ fun error told => by cases told; exact .inr (by rw [h.sendTimeout])
  closed away := by simp [Traffic.giveUp, Channel.giveUp, h.closed away]
  left nobody := by simp [Traffic.giveUp, Channel.giveUp, h.left nobody]

/-- After everyone in line is told, nobody is in line. -/
theorem line_answer_all (topic : String) (reply : Except QueueError Unit)
    (attempts : List Attempt) :
    (attempts.map (·.answer (fun _ => true) reply)).filterMap (·.place? topic) = [] := by
  rw [filterMap_place?_answer]
  simp

theorem Kept.shut (h : s.Kept opened) : s.shut.Kept opened where
  __ := h
  line := (line_answer_all ..).symm
  tickets := List.nodup_nil
  fresh := by simp [Traffic.shut, Channel.shut]
  accepted := h.accepted_answer _ _
  refused := h.refused_answer _ fun error told => by cases told; exact .inl rfl
  gone away := ⟨(h.gone away).1, rfl⟩
  closed _ := rfl
  left _ := rfl

theorem Kept.drop (h : s.Kept opened) (present : s.abandoned = none) : s.drop.Kept opened where
  __ := h
  bounded := Nat.zero_le _
  line := (line_answer_all ..).symm
  tickets := List.nodup_nil
  fresh := by simp [Traffic.drop, Channel.close]
  accepted := h.accepted_answer _ _
  refused := h.refused_answer _ fun error told => by cases told; exact .inl rfl
  conserved := by
    have conserved := h.conserved
    simp only [held, present, Option.getD_none] at conserved
    exact conserved
  gone _ := ⟨rfl, rfl⟩
  closed _ := rfl
  left _ := rfl

/-- A message that comes out lets the first in line in. -/
theorem Kept.take_cases (h : s.Kept opened) (taker : Taker) :
    (s.channel.buffer = [] ∧ s.take taker = none) ∨
    ∃ e rest, s.channel.buffer = e :: rest ∧
      ((s.channel.line = [] ∧ s.take taker = some (e, { s with
          channel := { s.channel with buffer := rest }
          receipts := s.receipts ++ [(taker, e)] })) ∨
        ∃ ticket waiting later, s.channel.line = (ticket, waiting) :: later ∧
          s.take taker = some (e, takeIn { s with
            channel := { s.channel with buffer := rest ++ [waiting], line := later }
            receipts := s.receipts ++ [(taker, e)] } ticket waiting)) := by
  unfold Traffic.take
  rcases Channel.receive_cases (h.capacity ▸ h.bounded) with
    ⟨buffer, receive⟩ | ⟨e, rest, buffer, ⟨line, receive⟩ | ⟨ticket, waiting, later, line, receive⟩⟩
  · exact .inl ⟨buffer, by rw [receive]⟩
  · exact .inr ⟨e, rest, buffer, .inl ⟨line, by simp [receive, line]⟩⟩
  · exact .inr ⟨e, rest, buffer, .inr ⟨ticket, waiting, later, line, by simp [receive, line]⟩⟩

/-- Tickets tell the attempts in line apart. -/
theorem Kept.number_eq (h : s.Kept opened) {i j : Nat} {a b : Attempt}
    (ha : s.attempts[i]? = some a) (hb : s.attempts[j]? = some b)
    (waits : a.standing = .waits ticket) (waits' : b.standing = .waits ticket) : i = j := by
  have tickets := h.tickets
  rw [h.line, List.map_filterMap, List.Nodup, List.pairwise_filterMap,
    List.pairwise_iff_getElem] at tickets
  obtain ⟨hi, rfl⟩ := List.getElem?_eq_some_iff.1 ha
  obtain ⟨hj, rfl⟩ := List.getElem?_eq_some_iff.1 hb
  by_contra apart
  rcases Nat.lt_or_gt_of_ne apart with less | less
  · exact tickets i j hi hj less ticket (by simp [Attempt.place?, waits]) ticket
      (by simp [Attempt.place?, waits']) rfl
  · exact tickets j i hj hi less ticket (by simp [Attempt.place?, waits']) ticket
      (by simp [Attempt.place?, waits]) rfl

/-- The attempt with a place in line, found by that place. -/
theorem Kept.findIdx_place (h : s.Kept opened) (member : (ticket, waiting) ∈ s.channel.line) :
    ∃ a, s.attempts[s.attempts.findIdx fun a =>
        a.place? s.channel.topic == some (ticket, waiting)]? = some a ∧
      a.standing = .waits ticket ∧ waiting = ⟨opened.topic, a.outputId⟩ := by
  rw [h.line] at member
  obtain ⟨a, known, place⟩ := List.mem_filterMap.1 member
  have found := List.findIdx_lt_length_of_exists
    (p := fun a : Attempt => a.place? s.channel.topic == some (ticket, waiting))
    ⟨a, known, by simp [h.topic, place]⟩
  have place := List.findIdx_getElem (w := found)
  exact ⟨_, List.getElem?_eq_getElem found,
    Attempt.place?_eq_some.1 (h.topic ▸ beq_iff_eq.1 place)⟩

/-- What comes out is the oldest accepted message that is held. -/
theorem Kept.pop (h : s.Kept opened) (present : s.abandoned = none)
    (buffer : s.channel.buffer = e :: rest) (taker : Taker) :
    Kept opened { s with
      channel := { s.channel with buffer := rest }, receipts := s.receipts ++ [(taker, e)] } where
  __ := h
  bounded := by
    have bounded := h.bounded
    rw [buffer] at bounded
    exact Nat.le_of_succ_le bounded
  conserved := by simpa [received, held, present, buffer] using h.conserved
  gone away := absurd present away

/-- Who is let in is accepted after all others. -/
theorem Kept.letIn (h : s.Kept opened) (present : s.abandoned = none)
    (room : s.channel.buffer.length < opened.capacity)
    (line : s.channel.line = (ticket, waiting) :: later) :
    Kept opened (takeIn { s with
      channel := { s.channel with buffer := s.channel.buffer ++ [waiting], line := later } }
      ticket waiting) := by
  have first : (ticket, waiting) ∈ s.channel.line := line ▸ List.mem_cons_self
  have tickets := h.tickets
  rw [line, List.map_cons, List.nodup_cons] at tickets
  obtain ⟨a, found, waits, message⟩ := h.findIdx_place first
  exact {
    __ := h
    bounded := by simpa [takeIn, answer] using Nat.succ_le_iff.2 room
    line := by
      have others : ∀ place ∈ later, (!(place.1 == ticket)) = true := by
        rintro place member
        simpa using fun same => tickets.1 (List.mem_map.2 ⟨place, member, same⟩)
      simp only [takeIn, answer, filterMap_place?_answer, ← h.line, line]
      rw [List.filter_cons_of_neg (by simp), List.filter_eq_self.2 others]
    tickets := tickets.2
    fresh place member := h.fresh place (line ▸ List.mem_cons_of_mem _ member)
    once := by
      have new : ∀ p ∈ s.accepted, p.1 ≠ s.attempts.findIdx fun a =>
          a.place? s.channel.topic == some (ticket, waiting) := by
        intro p member same
        obtain ⟨b, found', told, -⟩ := (h.accepted p.1 p.2).1 member
        rw [same, found] at found'
        cases found'
        cases waits.symm.trans told
      simp only [takeIn, answer, List.map_append, List.nodup_append, h.once]
      simpa using fun i e hp => new (i, e) hp
    accepted i e := by
      simp only [takeIn, answer, List.mem_append, h.accepted, List.getElem?_map,
        Option.map_eq_some_iff, List.mem_singleton, Prod.mk.injEq]
      constructor
      · rintro (⟨b, found', told, rfl⟩ | ⟨rfl, rfl⟩)
        · exact ⟨b, ⟨b, found', Attempt.answer_of_told told⟩, told, rfl⟩
        · exact ⟨_, ⟨a, found, rfl⟩,
            Attempt.answer_standing_eq_told.2 (.inr ⟨rfl, ticket, waits, by simp⟩),
            by simpa using message⟩
      · rintro ⟨_, ⟨b, found', rfl⟩, told, rfl⟩
        rcases Attempt.answer_standing_eq_told.1 told with earlier | ⟨-, ticket', waits', same⟩
        · exact .inl ⟨b, found', earlier, by simp⟩
        · rw [beq_iff_eq.1 same] at waits'
          obtain rfl := h.number_eq found found' waits waits'
          rw [found] at found'
          cases found'
          exact .inr ⟨rfl, by simpa using message.symm⟩
    refused := h.refused_answer _ fun error told => by cases told
    conserved := by
      simpa [received, held, present, takeIn, answer, ← List.append_assoc] using
        congrArg (· ++ [waiting]) h.conserved
    gone away := absurd present away
    closed shut := by simp [h.closed shut] at line
    left nobody := by simp [h.left nobody] at line }

/-- What comes out was accepted first, and lets in who was first in line. -/
theorem Kept.take (h : s.Kept opened) (present : s.abandoned = none)
    (taken : s.take taker = some (e, s')) : s'.Kept opened := by
  rcases h.take_cases taker with
    ⟨-, none⟩ | ⟨e', rest, buffer, ⟨line, some⟩ | ⟨ticket, waiting, later, line, some⟩⟩
  · cases none.symm.trans taken
  · obtain ⟨rfl, rfl⟩ := Prod.mk.inj (Option.some.inj (some.symm.trans taken))
    exact h.pop present buffer taker
  · obtain ⟨rfl, rfl⟩ := Prod.mk.inj (Option.some.inj (some.symm.trans taken))
    have bounded := h.bounded
    rw [buffer] at bounded
    exact (h.pop present buffer taker).letIn present bounded line

theorem Kept.handOn {sink : Sink σ} (h : s.Kept opened) : (s.handOn sink e).Kept opened :=
  { __ := h }

/-- Taking a message touches nothing that the relay keeps. -/
theorem take_frame (taken : s.take taker = some (e, s')) :
    s'.receipts = s.receipts ++ [(taker, e)] ∧ s'.offered = s.offered ∧ s'.delivered = s.delivered ∧
      s'.sink = s.sink ∧ s'.abandoned = s.abandoned ∧ s'.result = s.result ∧
      s'.producers = s.producers := by
  unfold Traffic.take at taken
  grind [takeIn, answer]

end Traffic

end DatasetFilters
