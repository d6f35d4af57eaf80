/-!
# Durations

Spans of time in seconds and nanoseconds. The seconds have 64 bits; a duration has more milliseconds
than that can hold.
-/

namespace RestDispatch

/-- A span of time. -/
structure Duration where
  seconds : UInt64
  nanos : Nat
  nanos_lt : nanos < 1000000000 := by decide
  deriving DecidableEq

namespace Duration

/-- A number of seconds. -/
def ofSeconds (n : UInt64) : Duration := ⟨n, 0, by decide⟩

/-- A number of microseconds. -/
def ofMicros (n : UInt64) : Duration :=
  ⟨n / 1000000, n.toNat % 1000000 * 1000, by
    have := Nat.mod_lt n.toNat (y := 1000000) (by decide)
    omega⟩

/-- The whole microseconds of a duration beyond its seconds. -/
def subsecondMicros (d : Duration) : Nat := d.nanos / 1000

/-- The whole microseconds of a duration. -/
def wholeMicros (d : Duration) : Nat := d.seconds.toNat * 1000000 + d.subsecondMicros

/-- The whole milliseconds of a duration. -/
def wholeMillis (d : Duration) : Nat := d.seconds.toNat * 1000 + d.nanos / 1000000

end Duration
end RestDispatch
