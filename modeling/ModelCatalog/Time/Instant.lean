import ModelCatalog.Time.Date

namespace ModelCatalog

/-- A point of UTC time: whole seconds since 1970 and nanoseconds after them. Within a leap second
the seconds stay at the last second of the minute and the nanoseconds run on past 10^9. -/
structure Instant where
  seconds : Int
  nanos : Nat
  nanos_lt : nanos < 2000000000
  leap_at_end : 1000000000 ≤ nanos → seconds % 60 = 59
deriving DecidableEq, Repr

/-- A stored point of time: microseconds since 1970, on a scale without leap seconds. -/
structure Timestamp where
  micros : Int
deriving DecidableEq, Repr

namespace Instant

def mk? (seconds : Int) (nanos : Nat) : Option Instant :=
  if h : nanos < 2000000000 ∧ (1000000000 ≤ nanos → seconds % 60 = 59) then
    some ⟨seconds, nanos, h.1, h.2⟩
  else none

theorem zero_nanos_lt : 0 < 2000000000 := by
  decide

theorem zero_nanos_no_leap (seconds : Int) : 1000000000 ≤ 0 → seconds % 60 = 59 := by
  omega

/-- The start of a second. -/
def ofSeconds (seconds : Int) : Instant where
  seconds := seconds
  nanos := 0
  nanos_lt := zero_nanos_lt
  leap_at_end := zero_nanos_no_leap seconds

def isLeap (t : Instant) : Bool :=
  1000000000 ≤ t.nanos

/-- The instant without what lies below a microsecond. -/
def wholeMicros (t : Instant) : Instant where
  seconds := t.seconds
  nanos := t.nanos - t.nanos % 1000
  nanos_lt := by have := t.nanos_lt; omega
  leap_at_end := fun _ => t.leap_at_end (by omega)

/-- What is stored of an instant. A leap second falls on the first second of the next minute. -/
def stored (t : Instant) : Timestamp :=
  ⟨t.seconds * 1000000 + (t.nanos / 1000 : Nat)⟩

def day (t : Instant) : Date :=
  Date.ofDays (t.seconds / 86400)

/-- The years that a reader of times accepts. -/
def leastYear : Int :=
  -262143

def greatestYear : Int :=
  262142

/-- Whether the instant lies in the years that can be read back. -/
def representable (t : Instant) : Bool :=
  Date.toDays ⟨leastYear, 1, 1⟩ * 86400 ≤ t.seconds &&
    t.seconds < Date.toDays ⟨greatestYear + 1, 1, 1⟩ * 86400

end Instant

namespace Timestamp

def instant (t : Timestamp) : Instant where
  seconds := t.micros / 1000000
  nanos := (t.micros % 1000000).toNat * 1000
  nanos_lt := by omega
  leap_at_end := by omega

/-- The first storable point of time: the start of 24 November of the year -4713. -/
def earliest : Timestamp :=
  ⟨Date.toDays ⟨-4713, 11, 24⟩ * 86400000000⟩

def isStorable (t : Timestamp) : Bool :=
  earliest.micros ≤ t.micros

/-- Storing what was read back changes nothing. -/
theorem stored_instant (t : Timestamp) : t.instant.stored = t := by
  obtain ⟨m⟩ := t
  simp only [instant, Instant.stored, mk.injEq]
  omega

end Timestamp

/-- A time source that reports one instant, to the microsecond, until it is set again. -/
structure Clock where
  reading : Instant
  wholeMicros_reading : reading.wholeMicros = reading
deriving Repr

namespace Clock

def showing (t : Instant) : Clock where
  reading := t.wholeMicros
  wholeMicros_reading := by
    simp only [Instant.wholeMicros, Instant.mk.injEq, true_and]
    omega

end Clock

end ModelCatalog
