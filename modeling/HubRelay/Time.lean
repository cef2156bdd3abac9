/-!
Instants and spans of a monotonic clock, in nanoseconds.

A clock reading is representable up to `Instant.latest`; `Instant.after?` is addition that notices
when the sum lies beyond it. Subtraction of instants stops at zero.
-/

namespace HubRelay

/-- A reading of the clock, in nanoseconds since its origin. -/
abbrev Instant := Nat

/-- A length of time in nanoseconds. -/
abbrev Span := Nat

namespace Span

def second : Span := 1000000000

def millisecond : Span := 1000000

/-- The longest span there is: just under `2 ^ 64` seconds. -/
def longest : Span := UInt64.size * second - 1

end Span

namespace Instant

/-- The last reading a clock can show: just under `2 ^ 63` seconds. -/
def latest : Instant := UInt64.size / 2 * Span.second - 1

/-- The instant `span` after `now`, when a clock can show it. -/
def after? (now : Instant) (span : Span) : Option Instant :=
  if now + span ≤ latest then some (now + span) else none

theorem after?_eq_some_iff {now : Instant} {span : Span} {later : Instant} :
    after? now span = some later ↔ now + span ≤ latest ∧ later = now + span := by
  unfold after?
  by_cases fits : now + span ≤ latest <;> simp [fits, eq_comm]

end Instant

end HubRelay
