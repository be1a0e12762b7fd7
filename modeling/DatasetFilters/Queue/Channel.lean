import DatasetFilters.Json.Printer

namespace DatasetFilters

inductive QueueError where
  | closed
  | timeout (milliseconds : Nat)
  | serialization (detail : String)
  | delivery (detail : String)
  deriving DecidableEq, Repr

/-- A span of time as people write it: seconds with a fraction, or whole milliseconds. -/
def durationText (milliseconds : Nat) : String :=
  if milliseconds = 0 then "0ns"
  else if milliseconds < 1000 then Decimal.text milliseconds ++ "ms"
  else
    let fraction := (Decimal.padded 3 (milliseconds % 1000)).reverse.dropWhile (· == 48)
    let point := if fraction.isEmpty then [] else '.' :: Decimal.toChars fraction.reverse
    Decimal.text (milliseconds / 1000) ++ String.ofList point ++ "s"

def QueueError.message : QueueError → String
  | closed => "submission queue is closed"
  | timeout ms => "submission queue full for " ++ durationText ms
  | serialization detail => s!"failed to encode submission message: {detail}"
  | delivery detail => s!"failed to deliver submission message: {detail}"

/-- A message that names an output to be made, with its topic. -/
structure Envelope where
  topic : String
  outputId : String
  deriving DecidableEq, Repr

def Envelope.toJson (e : Envelope) : Json := .ofMembers [("filter_output_id", .text e.outputId)]

/-- The bounded channel that carries submitted outputs to the workers. Messages come out in the
order in which they were accepted. A sender that finds the channel full waits in line and gives up
after a time; a message that was given up, or refused because the receiver is gone, never comes
out. -/
structure Channel where
  topic : String
  capacity : Nat
  /-- How long a sender waits for room, in milliseconds. -/
  sendTimeout : Nat
  /-- Accepted messages, the oldest first. -/
  buffer : List Envelope := []
  /-- Messages of senders that wait for room, by ticket, the oldest first. -/
  line : List (Nat × Envelope) := []
  nextTicket : Nat := 0
  isOpen : Bool := true
  deriving DecidableEq, Repr

inductive Admission where
  | accepted
  | waits (ticket : Nat)
  | refused
  deriving DecidableEq, Repr

namespace Channel

/-- An empty channel. A capacity of zero counts as one. -/
def create (topic : String) (capacity sendTimeout : Nat) : Channel where
  topic := topic
  capacity := max capacity 1
  sendTimeout := sendTimeout

/-- Offers a message: it is accepted if there is room and nobody waits. -/
def offer (c : Channel) (outputId : String) : Admission × Channel :=
  let e : Envelope := ⟨c.topic, outputId⟩
  if !c.isOpen then (.refused, c)
  else if c.buffer.length < c.capacity && c.line.isEmpty then
    (.accepted, { c with buffer := c.buffer ++ [e] })
  else
    (.waits c.nextTicket, { c with
      line := c.line ++ [(c.nextTicket, e)], nextTicket := c.nextTicket + 1 })

def giveUp (c : Channel) (ticket : Nat) : Channel :=
  { c with line := c.line.filter (·.1 != ticket) }

/-- Lets the first in line in, if there is room. -/
def letIn (c : Channel) : Channel :=
  match c.line with
  | [] => c
  | (_, e) :: rest =>
    if c.buffer.length < c.capacity then { c with buffer := c.buffer ++ [e], line := rest } else c

def receive (c : Channel) : Option Envelope × Channel :=
  match c.buffer with
  | [] => (none, c)
  | e :: rest => (some e, letIn { c with buffer := rest })

/-- The receiver goes away; what it did not take is lost, and so is what waits. -/
def close (c : Channel) : Channel := { c with buffer := [], line := [], isOpen := false }

/-- Sends a message while nobody receives: without room it waits in vain. -/
def enqueue (c : Channel) (outputId : String) : Except QueueError Unit × Channel :=
  match c.offer outputId with
  | (.accepted, c) => (.ok (), c)
  | (.refused, c) => (.error .closed, c)
  | (.waits ticket, c) => (.error (.timeout c.sendTimeout), c.giveUp ticket)

end Channel

/-- The destination of messages; it may keep a state of its own. -/
abbrev Sink (σ : Type) := Envelope → σ → Except QueueError Unit × σ

/-- Hands messages to a sink, one after the other, past those that it refuses. Gives the number of
those that it took. -/
def relay (sink : Sink σ) : List Envelope → σ → Nat × σ
  | [], state => (0, state)
  | e :: rest, state =>
    let (r, state) := sink e state
    let (n, state) := relay sink rest state
    (match r with | .ok _ => n + 1 | .error _ => n, state)

/-- The sink that takes every message and does no more than note it. -/
def logSink : Sink Unit := fun _ s => (.ok (), s)

end DatasetFilters
