import FlowVerdict.Failure
import FlowVerdict.Span

/-!
# The clock of a run

Workers see two clocks: one that counts from the start of the run, for pauses and deadlines, and the
time of day, against which the times of the records are held.
-/

namespace FlowVerdict

/-- What the clocks show. -/
structure Clock where
  /-- The time since the start of the run. -/
  elapsed : Span
  /-- The time of day in seconds, on the scale of the records. -/
  unix : Float

namespace Clock

def hasReached (c : Clock) (moment : Span) : Bool :=
  moment.nanos ≤ c.elapsed.nanos

def later (c : Clock) (pause : Span) : Span :=
  ⟨c.elapsed.nanos + pause.nanos⟩

/-- The time by which the clock is ahead of the start of a run: it counts from the start of the
machine, which is taken to lie an hour back. -/
def lead : Span := .ofSeconds 3600

/-- What the clock cannot show any more: it counts its seconds in 63 bits. -/
def horizon : Nat := Nat.pow 2 63 * Span.second

/-- The moment after a pause, if the clock can show it. -/
def deadline (c : Clock) (pause : Span) : Except SpanFault Span :=
  if lead.nanos + (c.later pause).nanos < horizon then .ok (c.later pause)
  else .error .beyondClock

end Clock

/-- How a worker came to its end. -/
inductive Outcome where
  /-- It was stopped by a fast shutdown. -/
  | done
  | failed (failure : Failure)
  /-- It met a span that does not exist, and stopped without a word. -/
  | broken (fault : SpanFault)
deriving Repr, DecidableEq

end FlowVerdict
