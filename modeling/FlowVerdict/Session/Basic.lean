import FlowVerdict.Kernel.Snapshot
import FlowVerdict.Log.Entry
import FlowVerdict.Settings
import FlowVerdict.Shutdown
import FlowVerdict.SynTable

/-!
# A session

All that a session of the correlator knows, as one value: its settings, what is pending, the
snapshot of the kernel's connection table if it is sampled, counters, the state of the shutdown, and
what it has said so far, to the event stream and to the log. Whatever happens is a function from one
session to the next.
-/

namespace FlowVerdict

abbrev ConnectionTable := Table FlowId Connection

/-- How the output takes an event line. -/
inductive Delivery where
  | written
  /-- Nothing was written. -/
  | refused (reason : String)
  /-- The line was written, but may be held back on its way. -/
  | unflushed (reason : String)
deriving Repr, DecidableEq

/-- Why a delivery went wrong. -/
def Delivery.fault? : Delivery → Option String
  | .written => none
  | .refused reason | .unflushed reason => some reason

def Delivery.isWritten : Delivery → Bool
  | .refused _ => false
  | _ => true

/-- An event that was handed to the output, and how that went. -/
structure Emission where
  event : Event
  delivery : Delivery

/-- The state of a session. -/
structure Session where
  settings : Settings
  syns : SynTable := {}
  connections : ConnectionTable := .empty
  /-- Present while the kernel's connection table is sampled. -/
  snapshot : Option Kernel.Snapshot := none
  shutdown : Shutdown := {}
  tally : Tally := {}
  /-- Whether the matcher has completed a pass. -/
  firstPass : Bool := false
  /-- How the output takes the event lines, counted from the start of the session. -/
  output : Nat → Delivery := fun _ => .written
  /-- The events handed to the output, in order. -/
  emissions : List Emission := []
  /-- The entries of the log, in order. -/
  journal : List LogEntry := []

namespace Session

def ofSettings (settings : Settings) : Session where
  settings := settings
  snapshot := if settings.tracking then some { grace := settings.grace } else none

def log (entry : LogEntry) (s : Session) : Session :=
  { s with journal := s.journal ++ [entry] }

def logAll (entries : List LogEntry) (s : Session) : Session :=
  { s with journal := s.journal ++ entries }

/-- Hands an event to the output. It is counted whether or not the output takes it, since its record
has left its table already. -/
def emit (event : Event) (s : Session) : Session :=
  let delivery := s.output s.emissions.length
  let handed :=
    { s with
      tally := s.tally.count event.verdict
      emissions := s.emissions ++ [⟨event, delivery⟩] }
  match delivery.fault? with
  | none => handed
  | some reason => handed.log (.outputFailed reason)

/-- The lines that went into the output, in order. -/
def lines (s : Session) : List String :=
  (s.emissions.filter (·.delivery.isWritten)).map (·.event.line)

/-- The session once all that it has said is written. -/
def cleared (s : Session) : Session :=
  { s with emissions := [], journal := [] }

def sizes (s : Session) : Sizes where
  syns := s.syns.size
  connections := s.connections.size
  trackedFlows := (s.snapshot.map (·.flows.size)).getD 0
  trackedPorts := (s.snapshot.map (·.ports.size)).getD 0

/-- Logs table sizes and counters, `elapsed` seconds after the start. -/
def report (elapsed : Nat) (s : Session) : Session :=
  s.log (.statistics elapsed s.sizes s.tally)

def announce (s : Session) : Session :=
  (s.log (.info "Starting synjoin with config:")).logAll
    (s.settings.describe.map .info ++ s.settings.warnings.map .warning)

def summarize (duration : Nat) (s : Session) : Session :=
  s.log (.summary duration s.tally)

def markFirstPass (s : Session) : Session :=
  { s with firstPass := true }

/-- Logs that a graceful shutdown has begun. There is nothing to log if the delay until the end is
no span. -/
def announceGraceful (reason : String) (s : Session) : Except SpanFault Unit × Session :=
  match s.settings.gracefulDelay with
  | .error fault => (.error fault, s)
  | .ok delay => (.ok (), s.log (.shutdownRequested reason delay.toSeconds))

def announceFast (reason : String) (s : Session) : Session :=
  s.log (.fastShutdown reason (Settings.fastDelay.nanos / Nat.pow 10 6))

/-- Starts a graceful shutdown unless one is running, and says so. -/
def requestShutdown (reason : String) (s : Session) : Except SpanFault Unit × Session :=
  let (started, shutdown) := s.shutdown.beginGraceful
  let s := { s with shutdown }
  if started then s.announceGraceful reason else (.ok (), s)

/-- Stops every worker, and says so. -/
def forceShutdown (reason : String) (fatal : Bool) (s : Session) : Session :=
  { s with shutdown := s.shutdown.force fatal }.announceFast reason

/-- One termination request from outside. -/
def signal (s : Session) : Except SpanFault Unit × Session :=
  let (fast, shutdown) := s.shutdown.request
  let s := { s with shutdown }
  if fast then (.ok (), s.announceFast "Signal received again")
  else s.announceGraceful "Signal received"

/-- The snapshot that a record of the given time has to wait for, if the published one is too
old. -/
def waitFor? (unixtime : Float) (s : Session) : Option Kernel.Wait := do
  let snapshot ← s.snapshot
  let wait : Kernel.Wait := { unixtime, since := snapshot.published.sequence }
  if wait.isOver snapshot.published then none else some wait

def isReady (wait : Kernel.Wait) (s : Session) : Bool :=
  match s.snapshot with
  | some snapshot => wait.isOver snapshot.published
  | none => true

/-- Takes up a listing of the kernel's connection table. The answer is the number of rows taken up;
none without sampling. -/
def cycle (listing : String) (stamp : Float) (s : Session) : Option Nat × Session :=
  match s.snapshot with
  | none => (none, s)
  | some snapshot =>
    let (snapshot, report) := snapshot.cycle listing stamp
    (some report.merged,
      { s with snapshot := some snapshot }.logAll (report.malformed.map .malformedRow))

end Session

end FlowVerdict
