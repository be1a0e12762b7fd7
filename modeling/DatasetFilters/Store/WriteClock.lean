import DatasetFilters.Instant.Basic

namespace DatasetFilters

/-- Gives stamps for writes: nanoseconds since 1970, pushed on where the time of day stands still or
goes back, so that each stamp is greater than the ones before. -/
structure WriteClock where
  last : UInt64 := 0
  deriving DecidableEq, Repr

namespace WriteClock

def next (c : WriteClock) (now : Instant) : UInt64 := max now.nanosSinceEpoch (c.last + 1)

def advanced (c : WriteClock) (now : Instant) : WriteClock := ⟨c.next now⟩

end WriteClock
end DatasetFilters
