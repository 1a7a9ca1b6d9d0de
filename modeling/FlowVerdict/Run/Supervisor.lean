import FlowVerdict.Worker.Basic

/-!
# The supervisor

The supervisor looks after a session from the first moment to the last: once a second it looks for
workers that have ended, takes note of a shutdown, and reports the counters when that is due. When
the time that the shutdown leaves is over, it ends the run. A fast shutdown wakes it at once.
-/

namespace FlowVerdict

/-- How a run comes to its end. -/
inductive Ending where
  /-- The exit status of the run. -/
  | exit (status : Nat)
  /-- The supervisor met a span that does not exist. -/
  | broken (fault : SpanFault)
deriving Repr, DecidableEq

/-- What the supervisor is doing. -/
inductive Supervisor where
  /-- Sleeps until its next look. -/
  | watching (look report : Span) (deadline : Option Span)
  /-- Gives the workers the time that a fast shutdown leaves. -/
  | leaving (till : Span)
  | ended (ending : Ending)
deriving Repr, DecidableEq

/-- What the end of a worker does to the session: a closed source and most other failures start a
graceful shutdown, a failure of the sampler a fast and fatal one. -/
def Session.workerFailed (worker : String) (failure : Failure) (s : Session) : Session :=
  match failure with
  | .sourceClosed path => (s.log (.sourceClosed path)).requestShutdown "Input source closed" |>.2
  | .trackingUnavailable _ | .trackingFailed _ =>
    s.forceShutdown "Connection tracking failed" true
  | _ =>
    (s.log (.warning (worker ++ " stopped: " ++ failure.message))).requestShutdown "Worker stopped"
      |>.2

namespace Supervisor

def lookInterval : Span := .ofSeconds 1

def leastSleep : Span := .ofMillis 1

def fresh : Supervisor :=
  .watching ⟨0⟩ ⟨0⟩ none

def status (s : Session) : Nat :=
  if s.shutdown.fatal then 1 else 0

/-- Ends the run, with a last report. -/
def leave (clock : Clock) (s : Session) : Supervisor × Session :=
  (.ended (.exit (status s)), s.report clock.elapsed.wholeSeconds)

/-- Starts a graceful shutdown if a worker has ended outside of one. -/
def noticeEnded (workers : List Worker) (s : Session) : Except SpanFault Unit × Session :=
  if s.shutdown.graceful then (.ok (), s)
  else
    match workers.find? (·.outcome?.isSome) with
    | none => (.ok (), s)
    | some worker => (s.log (.workerDied worker.name)).requestShutdown "Worker thread died"

/-- The moment at which the run is to end, once there is one. -/
def settleDeadline (clock : Clock) (deadline : Option Span) (s : Session) :
    Except SpanFault (Option Span) := do
  if s.shutdown.graceful && deadline.isNone then
    return some (← clock.deadline (← s.settings.gracefulDelay))
  return deadline

/-- The next look: a second later, but not after the end of the run. -/
def nextLook (clock : Clock) (deadline : Option Span) : Span :=
  let pause := match deadline with
    | some d => min lookInterval.nanos (d.nanos - clock.elapsed.nanos)
    | none => lookInterval.nanos
  clock.later ⟨max leastSleep.nanos pause⟩

/-- Goes back to sleep, after a report if one is due. -/
def sleep (clock : Clock) (report : Span) (deadline : Option Span) (s : Session) :
    Supervisor × Session :=
  if clock.hasReached report then
    let s := s.report clock.elapsed.wholeSeconds
    match clock.deadline s.settings.statsInterval with
    | .error fault => (.ended (.broken fault), s)
    | .ok report => (.watching (nextLook clock deadline) report deadline, s)
  else (.watching (nextLook clock deadline) report deadline, s)

/-- One look at the session. -/
def look (clock : Clock) (workers : List Worker) (report : Span) (deadline : Option Span)
    (s : Session) : Supervisor × Session :=
  if s.shutdown.fast then (.leaving (clock.later Settings.fastDelay), s)
  else
    match noticeEnded workers s with
    | (.error fault, s) => (.ended (.broken fault), s)
    | (.ok (), s) =>
      match settleDeadline clock deadline s with
      | .error fault => (.ended (.broken fault), s)
      | .ok deadline =>
        if deadline.any clock.hasReached then leave clock s else sleep clock report deadline s

/-- What the supervisor does now; nothing if it sleeps. -/
def step (clock : Clock) (workers : List Worker) (s : Session) :
    Supervisor → Option (Supervisor × Session)
  | watching next report deadline =>
    if s.shutdown.fast || clock.hasReached next then some (look clock workers report deadline s)
    else none
  | leaving till => if clock.hasReached till then some (leave clock s) else none
  | ended _ => none

def due? : Supervisor → Option Span
  | watching next _ _ => some next
  | leaving till => some till
  | ended _ => none

end Supervisor

end FlowVerdict
