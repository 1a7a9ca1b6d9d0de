import FlowVerdict.Session.Basic
import FlowVerdict.Worker.Clock

/-!
# The sampler at work

The sampler asks for one listing of the kernel's connection table after the other, with a pause
between them. A listing that cannot be had ends it.
-/

namespace FlowVerdict

inductive Sampler where
  | starting
  /-- Has asked for a listing. -/
  | asking
  | resting (till : Span)
  | ended (outcome : Outcome)
deriving Repr, DecidableEq

namespace Sampler

def title : String := "CONNTRACK LOOKUP"

def announce (s : Session) : Session :=
  s.log (.workerStarted title "sampling the kernel connection table")

/-- Asks for a listing, unless a fast shutdown is on. -/
def ask (s : Session) : Sampler :=
  if s.shutdown.fast then .ended .done else .asking

/-- What the sampler does now; nothing if it has to wait. -/
def step (clock : Clock) (s : Session) : Sampler → Option (Sampler × Session)
  | starting => some (ask s, announce s)
  | asking => none
  | resting till =>
    if s.shutdown.fast then some (.ended .done, s)
    else if clock.hasReached till then some (.asking, s)
    else none
  | ended _ => none

/-- The answer to the question for a listing that was put at the time `stamp`. -/
def answer (clock : Clock) (stamp : Float) (listing : Except Failure String) (s : Session) :
    Sampler × Session :=
  match listing with
  | .error failure =>
    (.ended (.failed failure), s.log (.trackingUnavailable failure.message))
  | .ok text =>
    let s := (s.cycle text stamp).2
    (.resting (clock.later Settings.cycleInterval),
      { s with tally := { s.tally with cycles := s.tally.cycles + 1 } })

def due? : Sampler → Option Span
  | resting till => some till
  | _ => none

end Sampler

end FlowVerdict
