import FlowVerdict.Session.Matching
import FlowVerdict.Worker.Clock

/-!
# The matcher at work

After a warm-up, in which the intakes may drain what has gathered in the pipes, the matcher makes a
pass whenever connections are pending, and rests between two passes.
-/

namespace FlowVerdict

inductive Matcher where
  | starting
  | warmingUp (till : Span)
  /-- Looks for pending connections. -/
  | watching
  | resting (till : Span)
  | ended (outcome : Outcome)
deriving Repr, DecidableEq

namespace Matcher

def title : String := "OUTPUT CONNECTIONS"

/-- Says that the matcher starts, and with which warm-up. -/
def announce (warmUp : Span) (s : Session) : Session :=
  s.log (.workerStarted title
    ("waiting " ++ Decimal.onePlace warmUp.toSeconds ++
      "s for input threads to gather old data in the pipes"))

/-- The start. A warm-up that is no span, or one whose end the clock cannot show, ends the
matcher. -/
def start (clock : Clock) (s : Session) : Matcher × Session :=
  match s.settings.warmUp with
  | .error fault => (.ended (.broken fault), s)
  | .ok warmUp =>
    let s := announce warmUp s
    match clock.deadline warmUp with
    | .error fault => (.ended (.broken fault), s)
    | .ok till => (.warmingUp till, s)

/-- A pass and the rest after it. -/
def pass (clock : Clock) (s : Session) : Matcher × Session :=
  (.resting (clock.later Settings.passInterval), (s.matchPass clock.unix).2.markFirstPass)

/-- What the matcher does now; nothing if it has to wait. -/
def step (clock : Clock) (s : Session) : Matcher → Option (Matcher × Session)
  | starting => some (start clock s)
  | warmingUp till =>
    if s.shutdown.fast then some (.ended .done, s)
    else if clock.hasReached till then
      some (.watching, s.log (.info ("[" ++ title ++ "] running")))
    else none
  | watching =>
    if s.shutdown.fast then some (.ended .done, s)
    else if s.connections.isEmpty then none
    else some (pass clock s)
  | resting till =>
    if s.shutdown.fast then some (.ended .done, s)
    else if clock.hasReached till then some (.watching, s)
    else none
  | ended _ => none

def due? : Matcher → Option Span
  | warmingUp till | resting till => some till
  | _ => none

end Matcher

end FlowVerdict
