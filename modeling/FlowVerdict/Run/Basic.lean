import FlowVerdict.Run.Supervisor

/-!
# A run of the program

A session with its workers, its clock and its supervisor. At one moment whoever can act does so, one
after the other, the supervisor first; when nobody can, the run waits: for the next moment at which
somebody wakes, for input, or for a listing of the kernel's connection table.
-/

namespace FlowVerdict

/-- A run at one moment. -/
structure Run where
  clock : Clock
  session : Session
  workers : List Worker
  /-- Absent if workers are run by themselves; then nothing follows from how they end. -/
  supervisor : Option Supervisor

namespace Run

/-- A run under supervision, before anybody has acted. -/
def start (session : Session) (unix : Float) (headers connections : Pipe) : Run where
  clock := { elapsed := ⟨0⟩, unix }
  session
  workers := Worker.crew session.settings headers connections
  supervisor := some .fresh

/-- A worker by itself. -/
def solo (worker : Worker) (session : Session) (unix : Float) : Run where
  clock := { elapsed := ⟨0⟩, unix }
  session
  workers := [worker]
  supervisor := none

/-- What the end of a worker means for a session under supervision. -/
def escalate (supervised : Bool) (worker : Worker) (s : Session) : Session :=
  match supervised, worker.outcome? with
  | true, some (.failed failure) => s.workerFailed worker.name failure
  | _, _ => s

/-- The first worker that can act does so. -/
def stepWorkers (clock : Clock) (supervised : Bool) (s : Session) :
    List Worker → Option (List Worker × Session)
  | [] => none
  | worker :: rest =>
    match worker.step clock s with
    | some (worker, s) => some (worker :: rest, escalate supervised worker s)
    | none =>
      (stepWorkers clock supervised s rest).map fun (rest, s) => (worker :: rest, s)

/-- The supervisor acts, if it can. -/
def stepSupervisor (r : Run) : Option Run := do
  let (supervisor, session) ← (← r.supervisor).step r.clock r.workers r.session
  some { r with supervisor := some supervisor, session }

/-- The first who can act does so; nothing if nobody can. -/
def step (r : Run) : Option Run :=
  match r.stepSupervisor with
  | some next => some next
  | none =>
    (stepWorkers r.clock r.supervisor.isSome r.session r.workers).map fun (workers, session) =>
      { r with workers, session }

/-- The moments up to which somebody sleeps. -/
def alarms (r : Run) : List Span :=
  (r.supervisor.bind Supervisor.due?).toList ++ r.workers.filterMap Worker.due?

/-- The first moment after now at which somebody wakes. -/
def due? (r : Run) : Option Span :=
  (((r.alarms.filter fun moment => !r.clock.hasReached moment).map Span.nanos).min?).map Span.mk

def wait (moment : Span) (r : Run) : Run :=
  let unix := r.clock.unix + (Span.mk (moment.nanos - r.clock.elapsed.nanos)).toSeconds
  { r with clock := { elapsed := moment, unix } }

def isAsking (r : Run) : Bool :=
  r.workers.any Worker.isAsking

def answerWorkers (clock : Clock) (supervised : Bool) (stamp : Float)
    (listing : Except Failure String) (s : Session) : List Worker → List Worker × Session
  | [] => ([], s)
  | .sampler .asking :: rest =>
    let (phase, s) := Sampler.answer clock stamp listing s
    (.sampler phase :: rest, escalate supervised (.sampler phase) s)
  | worker :: rest =>
    let (rest, s) := answerWorkers clock supervised stamp listing s rest
    (worker :: rest, s)

/-- The run after the listing that the sampler has asked for at the time `stamp`. -/
def answer (stamp : Float) (listing : Except Failure String) (r : Run) : Run :=
  let (workers, session) :=
    answerWorkers r.clock r.supervisor.isSome stamp listing r.session r.workers
  { r with workers, session }

def mapIntake (feed : Feed) (f : Intake → Intake) (r : Run) : Run :=
  { r with
    workers := r.workers.map fun
      | .intake other phase => .intake other (if other = feed then f phase else phase)
      | worker => worker }

/-- The pipe of a feed has been opened, or could not be. -/
def opened (feed : Feed) (source : Except IoFault Stream) : Run → Run :=
  mapIntake feed (·.withSource source)

def feed (feed : Feed) (arrived : Stream) : Run → Run :=
  mapIntake feed (·.feed arrived)

/-- What happens to a run from one moment to the next. -/
inductive Move where
  /-- The first who can act does so. -/
  | act
  | answer (stamp : Float) (listing : Except Failure String)
  | tick (clock : Clock)
  | opened (feed : Feed) (source : Except IoFault Stream)
  | arrived (feed : Feed) (input : Stream)
  | signal
  /-- What the session has said is written. -/
  | written

def move (r : Run) : Move → Run
  | .act => r.step.getD r
  | .answer stamp listing => r.answer stamp listing
  | .tick clock => { r with clock }
  | .opened feed source => r.opened feed source
  | .arrived feed input => r.feed feed input
  | .signal => { r with session := r.session.signal.2 }
  | .written => { r with session := r.session.cleared }

/-- How the run has ended, if it has. A run without supervisor ends with its workers. -/
def ending? (r : Run) : Option Ending :=
  match r.supervisor with
  | some (.ended ending) => some ending
  | some _ => none
  | none => if r.workers.all (·.outcome?.isSome) then some (.exit 0) else none

/-- The exit status of a run that its supervisor could not bring to its end. -/
def brokenStatus : Nat := 101

/-- The exit status of a run that took so many seconds, and the session with its summary. A run that
broke has none. -/
def conclude (duration : Nat) (r : Run) : Nat × Session :=
  match r.ending? with
  | some (.exit status) => (status, r.session.summarize duration)
  | _ => (brokenStatus, r.session)

end Run

end FlowVerdict
