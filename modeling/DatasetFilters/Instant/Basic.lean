import DatasetFilters.Instant.Calendar

namespace DatasetFilters

/-- A point in time with nanoseconds. Leap seconds are kept apart: during one the seconds stand
still and the nanoseconds run on beyond a thousand million. -/
structure Instant where
  /-- Seconds since 1970-01-01T00:00:00Z, leap seconds not counted. -/
  seconds : Int
  nanos : Nat
  inRange : -96465292 * 86400 ≤ seconds ∧ seconds < 95026237 * 86400
  /-- Only the last second of a minute can be followed by a leap second. -/
  nanosValid : nanos < 1000000000 ∨ (nanos < 2000000000 ∧ seconds % 60 = 59)
  deriving DecidableEq, Repr

namespace Instant

/-- The instant with these seconds and nanoseconds, if there is one. -/
def ofParts? (seconds : Int) (nanos : Nat) : Option Instant :=
  if h : (-96465292 * 86400 ≤ seconds ∧ seconds < 95026237 * 86400) ∧
      (nanos < 1000000000 ∨ (nanos < 2000000000 ∧ seconds % 60 = 59)) then
    some ⟨seconds, nanos, h.1, h.2⟩
  else none

theorem ofParts?_self (t : Instant) : ofParts? t.seconds t.nanos = some t := by
  have h := And.intro t.inRange t.nanosValid
  unfold ofParts?
  rw [dif_pos h]

/-- 1970-01-01T00:00:00Z. -/
def epoch : Instant := ⟨0, 0, by decide, by decide⟩

instance : Inhabited Instant := ⟨epoch⟩

/-- Nanoseconds since the epoch, zero before it and where they do not fit 63 bits. -/
def nanosSinceEpoch (t : Instant) : UInt64 :=
  let n := t.seconds * 1000000000 + t.nanos
  if 0 ≤ n ∧ n < 0x8000000000000000 then UInt64.ofNat n.toNat else 0

/-- The epoch itself and everything up to the first moment of the year one stand for no time. -/
def isZero (t : Instant) : Bool :=
  (t.seconds == 0 && t.nanos == 0) || t.seconds ≤ -62135596800

/-- The moment `n` seconds later; the instant itself where the calendar ends. -/
def addSeconds (t : Instant) (n : Int) : Instant :=
  (ofParts? (t.seconds + n) t.nanos).getD t

end Instant
end DatasetFilters
