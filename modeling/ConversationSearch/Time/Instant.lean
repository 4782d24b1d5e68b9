/-!
# Instants

An instant is a number of seconds since 1970-01-01T00:00:00Z and nanoseconds within the second. A
leap second is kept as the second before it with a second's worth of nanoseconds more. Where an
instant is read or counted, only the last second of a minute has a leap second behind it; any other
second gets one where the nanoseconds of an instant are set by hand, and such a leap second is
written as the second that follows. Instants are those of the years -262143 to 262142.

The index stores and compares dates at millisecond precision; `toMillis` drops what is below.
-/

namespace ConversationSearch.Time

/-- The first second of the year -262143. -/
def firstSecond : Int := -8334601228800

/-- The last second of the year 262142. -/
def lastSecond : Int := 8210266876799

/-- The nanoseconds of a second. -/
def nanosPerSecond : Nat := 1000000000

/-- The nanoseconds of a millisecond. -/
def nanosPerMilli : Nat := 1000000

/-- A point in time. -/
structure Instant where
  seconds : Int
  nanos : Nat
  first_le : firstSecond ≤ seconds
  le_last : seconds ≤ lastSecond
  nanos_lt : nanos < 2 * nanosPerSecond
  deriving DecidableEq

namespace Instant

/-- Where the instant lies in a leap second, its minute ends with it. -/
def LeapEndsMinute (t : Instant) : Prop :=
  nanosPerSecond ≤ t.nanos → t.seconds % 60 = 59

instance (t : Instant) : Decidable t.LeapEndsMinute :=
  inferInstanceAs (Decidable (_ → _))

/-- The instant with the given seconds and nanoseconds, if there is one. -/
def ofParts? (seconds : Int) (nanos : Nat) : Option Instant :=
  if h : firstSecond ≤ seconds ∧ seconds ≤ lastSecond ∧ nanos < 2 * nanosPerSecond then
    some ⟨seconds, nanos, h.1, h.2.1, h.2.2⟩
  else none

/-- The instant that a count of seconds and nanoseconds stands for, leap seconds being counted at
the end of a minute only. -/
def of? (seconds : Int) (nanos : Nat) : Option Instant :=
  (ofParts? seconds nanos).filter fun t => decide t.LeapEndsMinute

/-- Earlier instants come first; within a leap second its nanoseconds count on. -/
protected def lt (a b : Instant) : Prop :=
  a.seconds < b.seconds ∨ a.seconds = b.seconds ∧ a.nanos < b.nanos

/-- Not later. -/
protected def le (a b : Instant) : Prop :=
  a.seconds < b.seconds ∨ a.seconds = b.seconds ∧ a.nanos ≤ b.nanos

instance : LT Instant := ⟨Instant.lt⟩

instance : LE Instant := ⟨Instant.le⟩

instance (a b : Instant) : Decidable (a < b) :=
  inferInstanceAs (Decidable (_ ∨ _))

instance (a b : Instant) : Decidable (a ≤ b) :=
  inferInstanceAs (Decidable (_ ∨ _))

/-- The instant without what is below a millisecond. -/
def toMillis (t : Instant) : Instant where
  seconds := t.seconds
  nanos := t.nanos - t.nanos % nanosPerMilli
  first_le := t.first_le
  le_last := t.le_last
  nanos_lt := Nat.lt_of_le_of_lt (Nat.sub_le _ _) t.nanos_lt

/-- The instant a number of milliseconds after the start of 1970, if there is one. -/
def ofEpochMillis? (millis : Int) : Option Instant :=
  of? (millis / 1000) ((millis % 1000).toNat * nanosPerMilli)

end Instant
end ConversationSearch.Time
