import FlowVerdict.Session.Scan
import FlowVerdict.Worker.Clock

/-!
# The scan detector at work

The detector waits for the matcher's first pass, though not for longer than three warm-ups: not even
a fast shutdown cuts this wait short. Then it makes pass after pass, each once the snapshot is new
enough for it.
-/

namespace FlowVerdict

inductive ScanDetector where
  | starting
  /-- Waits for the first pass of the matcher. -/
  | latched (till : Span)
  | scanning
  /-- Waits for a snapshot. -/
  | waiting (wait : Kernel.Wait)
  | resting (till : Span)
  | ended (outcome : Outcome)

namespace ScanDetector

def title : String := "OUTPUT SYN-SCANS"

/-- Says that the detector starts, and how long it waits at most. -/
def announce (latch : Span) (s : Session) : Session :=
  s.log (.workerStarted title
    ("waiting a max. of " ++ Decimal.onePlace latch.toSeconds ++ "s for the first matcher pass"))

/-- The start. A wait that is no span ends the detector. -/
def start (clock : Clock) (s : Session) : ScanDetector × Session :=
  match s.settings.latch with
  | .error fault => (.ended (.broken fault), s)
  | .ok latch => (.latched (clock.later latch), announce latch s)

/-- The rest after a pass. -/
def rest (clock : Clock) : ScanDetector :=
  .resting (clock.later Settings.passInterval)

def pass (clock : Clock) (s : Session) : ScanDetector × Session :=
  (rest clock, (s.scanPass clock.unix).2)

/-- What the detector does now; nothing if it has to wait. -/
def step (clock : Clock) (s : Session) : ScanDetector → Option (ScanDetector × Session)
  | starting => some (start clock s)
  | latched till =>
    if s.firstPass || clock.hasReached till then
      some (.scanning, s.log (.info ("[" ++ title ++ "] running")))
    else none
  | scanning =>
    if s.shutdown.fast then some (.ended .done, s)
    else
      match s.scanWait? with
      | none => some (pass clock s)
      | some wait => some (.waiting wait, s)
  | waiting wait =>
    if s.isReady wait then some (pass clock s)
    else if s.shutdown.fast then some (rest clock, s)
    else none
  | resting till =>
    if s.shutdown.fast then some (.ended .done, s)
    else if clock.hasReached till then some (.scanning, s)
    else none
  | ended _ => none

def due? : ScanDetector → Option Span
  | latched till | resting till => some till
  | _ => none

end ScanDetector

end FlowVerdict
