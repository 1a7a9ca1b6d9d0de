import FlowVerdict.Decimal.Binary

/-!
# Spans of time

A span in whole nanoseconds, as clocks count it, from a setting in fractional seconds. The number of
whole seconds fits 64 bits, so that there are settings with no span: those that round to more.
-/

namespace FlowVerdict

structure Span where
  nanos : Nat
deriving Repr, DecidableEq

/-- Why a setting has no span. -/
inductive SpanFault where
  /-- The setting, or a sum of spans, has more seconds than 64 bits hold. -/
  | tooLong
  /-- The end of the span lies beyond what the clock can show. -/
  | beyondClock
deriving Repr, DecidableEq

namespace Span

def second : Nat := Nat.pow 10 9

/-- The nanoseconds that no span reaches. -/
def limit : Nat := Nat.pow 2 64 * second

def ofMillis (n : Nat) : Span :=
  ⟨n * Nat.pow 10 6⟩

def ofSeconds (n : Nat) : Span :=
  ⟨n * second⟩

/-- The span of a setting in seconds, to the nearest nanosecond and to the even one at a tie. A
setting that is negative or no number counts as zero. -/
def ofSetting (seconds : Float) : Except SpanFault Span :=
  if 0.0 < seconds then
    match Decimal.Binary.ofFloat seconds with
    | .finite _ mantissa exponent =>
      let (num, den) := Decimal.quotient mantissa exponent second
      let nanos := Decimal.roundDiv .toEven num den
      if nanos < limit then .ok ⟨nanos⟩ else .error .tooLong
    | _ => .error .tooLong
  else .ok ⟨0⟩

def add (a b : Span) : Except SpanFault Span :=
  if a.nanos + b.nanos < limit then .ok ⟨a.nanos + b.nanos⟩ else .error .tooLong

def wholeSeconds (s : Span) : Nat :=
  s.nanos / second

def subsecond (s : Span) : Nat :=
  s.nanos % second

/-- The span in fractional seconds: the double nearest to its whole seconds and that nearest to the
rest, added. -/
def toSeconds (s : Span) : Float :=
  (UInt64.ofNat s.wholeSeconds).toFloat + (UInt64.ofNat s.subsecond).toFloat / 1e9

end Span

end FlowVerdict
