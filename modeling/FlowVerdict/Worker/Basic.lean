import FlowVerdict.Worker.Intake
import FlowVerdict.Worker.Matcher
import FlowVerdict.Worker.Sampler
import FlowVerdict.Worker.ScanDetector

/-!
# Workers

The workers of a session under one type. A worker acts in steps: each step is taken at one moment
and changes the session at once, and between two steps the worker waits, be it for a moment, for
input or for what another worker does.
-/

namespace FlowVerdict

/-- A worker and what it is doing. -/
inductive Worker where
  | sampler (phase : Sampler)
  | intake (feed : Feed) (phase : Intake)
  | matcher (phase : Matcher)
  | scanDetector (phase : ScanDetector)

namespace Worker

def name : Worker → String
  | sampler _ => "conntrack"
  | intake .headers _ => "syn-ingest"
  | intake .connections _ => "con-ingest"
  | matcher _ => "matcher"
  | scanDetector _ => "scan-detector"

/-- What a worker does now; nothing if it has to wait. -/
def step (clock : Clock) (s : Session) : Worker → Option (Worker × Session)
  | sampler phase => (phase.step clock s).map fun (phase, s) => (.sampler phase, s)
  | intake feed phase => (phase.step feed s).map fun (phase, s) => (.intake feed phase, s)
  | matcher phase => (phase.step clock s).map fun (phase, s) => (.matcher phase, s)
  | scanDetector phase => (phase.step clock s).map fun (phase, s) => (.scanDetector phase, s)

def due? : Worker → Option Span
  | sampler phase => phase.due?
  | intake _ _ => none
  | matcher phase => phase.due?
  | scanDetector phase => phase.due?

def outcome? : Worker → Option Outcome
  | sampler (.ended outcome) | intake _ (.ended outcome) | matcher (.ended outcome)
  | scanDetector (.ended outcome) => some outcome
  | _ => none

def isAsking : Worker → Bool
  | sampler .asking => true
  | _ => false

/-- The workers of a session at the start, in the order in which they are looked at: the sampler if
the kernel's connection table is sampled, the intakes with their pipes, the matcher and the scan
detector. -/
def crew (settings : Settings) (headers connections : Pipe) : List Worker :=
  (if settings.tracking then [sampler .starting] else []) ++
    [intake .headers (.starting headers), intake .connections (.starting connections),
      matcher .starting, scanDetector .starting]

end Worker

end FlowVerdict
