import Gazetteer.Time.Calendar

/-!
# Instants

An instant counts seconds since 1970-01-01T00:00:00Z and nanoseconds within its second.  The second before a
leap second may hold up to two billion nanoseconds.  Instants reach from the year -262143 to 262142.
-/

namespace Gazetteer.Time

set_option autoImplicit false

/-- A point in time; `nanos` at or above a billion lies in a leap second. -/
structure Instant where
  seconds : Int
  nanos : Nat
  deriving Repr, DecidableEq, Inhabited

namespace Instant

/-- The least number of seconds of an instant, the start of the year -262143. -/
def minSeconds : Int := -8334601228800

/-- The greatest, the end of the year 262142. -/
def maxSeconds : Int := 8210266876799

/-- Whether the instant lies within the range of representable times. -/
def inRange (t : Instant) : Bool :=
  minSeconds ≤ t.seconds && t.seconds ≤ maxSeconds &&
    (t.nanos < 1000000000 || (t.nanos < 2000000000 && t.seconds % 60 = 59))

/-- The date in UTC. -/
def date (t : Instant) : Date := Date.ofDays (t.seconds / 86400)

/-- The second of the day in UTC. -/
def secondOfDay (t : Instant) : Int := t.seconds % 86400

/-- Order in time. -/
def before (s t : Instant) : Bool :=
  s.seconds < t.seconds || (s.seconds = t.seconds && s.nanos < t.nanos)

/-- Nanoseconds from `s` to `t`. A leap second between their times of day counts. -/
def nanosUntil (s t : Instant) : Int :=
  let leap : Int :=
    if s.secondOfDay < t.secondOfDay && 1000000000 ≤ s.nanos then 1
    else if t.secondOfDay < s.secondOfDay && 1000000000 ≤ t.nanos then -1
    else 0
  (t.seconds - s.seconds + leap) * 1000000000 + (t.nanos - s.nanos)

/-- Whole days from `s` to `t`; a part of a day does not count, in either direction. -/
def daysUntil (s t : Instant) : Int := (s.nanosUntil t).tdiv (86400 * 1000000000)

end Instant

end Gazetteer.Time
