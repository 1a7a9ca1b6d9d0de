import FlowVerdict.CommandLine.Message
import FlowVerdict.CommandLine.Reader
import FlowVerdict.Kernel.Query
import FlowVerdict.Run.Basic
import Std.Async.Signal
import Std.Internal.UV.System
import Std.Sync.Mutex
import Std.Time.Format
import Std.Time.Zoned

/-!
# The program

The outer layer: it reads the pipes, the clocks and the signals, hands them to a `Run`, and writes
what the run has to say. Event lines go to standard output, the log to standard error and, if
wanted, to a file.
-/

namespace FlowVerdict.Program

/-- The cause that the operating system gives for an error. -/
def ioFault : IO.Error → IoFault
  | .otherError code _ | .resourceBusy code _ | .resourceVanished code _
  | .unsupportedOperation code _ | .hardwareFault code _ | .unsatisfiedConstraints code _
  | .illegalOperation code _ | .protocolError code _ | .timeExpired code _
  | .alreadyExists _ code _ | .interrupted _ code _ | .noFileOrDirectory _ code _
  | .invalidArgument _ code _ | .permissionDenied _ code _ | .resourceExhausted _ code _
  | .inappropriateType _ code _ | .noSuchThing _ code _ => .os code.toNat
  | .unexpectedEof => .custom "unexpected end of file"
  | .userError text => .custom text

def attempt {α : Type} (action : IO α) : IO (Except IoFault α) := do
  try return .ok (← action) catch error => return .error (ioFault error)

/-- Where the log goes, and in which form. -/
structure Console where
  json : Bool
  pid : Nat
  file : Option IO.FS.Handle

namespace Console

/-- An entry of the log as a line, with time and process. -/
def line (c : Console) (entry : LogEntry) : IO String := do
  let time := (← Std.Time.DateTime.now).format "uuuu-MM-dd'T'HH:mm:ss.SSSSSSxxx"
  return if c.json then (entry.toJson [("timestamp", .str time), ("pid", .ofNat c.pid)]).write
    else time ++ " [PID " ++ toString c.pid ++ "] " ++ entry.plain

/-- Writes an entry of the log. A log that cannot be written is no reason to stop. -/
def write (c : Console) (entry : LogEntry) : IO Unit := do
  let line := (← c.line entry) ++ "\n"
  let _ ← attempt do (← IO.getStderr).putStr line
  if let some file := c.file then
    let _ ← attempt do
      file.putStr line
      file.flush

/-- Hands an event line to standard output; a failure goes into the log. -/
def emit (s : Session) (event : Event) : IO Session := do
  let written ← attempt do
    let out ← IO.getStdout
    out.putStr (event.line ++ "\n")
    out.flush
  match written with
  | .ok () => return s
  | .error fault => return s.log (.outputFailed fault.message)

def publish (c : Console) (s : Session) : IO Unit := do
  let s ← s.emissions.foldlM (fun s emission => emit s emission.event) s
  s.journal.forM c.write

end Console

/-- A pipe that a thread of its own reads. -/
structure Tap where
  feed : Feed
  path : String
  /-- What has come from the pipe. -/
  inbox : Std.Mutex (List Run.Move)
  /-- Kept until the end, so that the pipe does not lose its reader. -/
  handle : IO.Ref (Option IO.FS.Handle)
  /-- Whether the thread is to stop. -/
  closing : IO.Ref Bool
  /-- Whether the thread has stopped. -/
  finished : IO.Ref Bool

namespace Tap

def post (t : Tap) (news : Run.Move) : IO Unit :=
  t.inbox.atomically (modify (· ++ [news]))

/-- Reads up to the end of the pipe, byte by byte so that no line is held up by the next one. -/
partial def read (t : Tap) (handle : IO.FS.Handle) (line : ByteArray) : IO Unit := do
  let next ← attempt (handle.read 1)
  if ← t.closing.get then return
  match next with
  | .error fault =>
    if fault.isInterruption then t.read handle line
    else t.post (.arrived t.feed ⟨[line.toList], .failed fault⟩)
  | .ok bytes =>
    if bytes.isEmpty then t.post (.arrived t.feed ⟨[line.toList], .closed⟩)
    else
      let line := line ++ bytes
      if bytes.toList.contains Stream.lineFeed then
        t.post (.arrived t.feed ⟨[line.toList], .silent⟩)
        t.read handle .empty
      else t.read handle line

def work (t : Tap) : IO Unit := do
  match ← attempt (IO.FS.Handle.mk t.path .read) with
  | .error fault => t.post (.opened t.feed (.error fault))
  | .ok handle =>
    t.handle.set (some handle)
    t.post (.opened t.feed (.ok ⟨[], .silent⟩))
    t.read handle .empty
  t.finished.set true

def start (feed : Feed) (path : String) (inbox : Std.Mutex (List Run.Move)) : IO Tap := do
  let t : Tap := {
    feed, path, inbox
    handle := ← IO.mkRef none
    closing := ← IO.mkRef false
    finished := ← IO.mkRef false }
  let _ ← IO.asTask t.work .dedicated
  return t

/-- Stops the thread. One that waits for input is woken by a blank line, which means nothing to any
reader of the pipe. -/
def stop (t : Tap) : IO Unit := do
  t.closing.set true
  unless ← t.finished.get do
    let _ ← attempt do
      let handle ← IO.FS.Handle.mk t.path .append
      handle.putStr "\n"
      handle.flush

end Tap

/-- A signal that asks for the end of the program. -/
structure Alarm where
  waiter : Std.Async.Signal.Waiter
  next : IO.Ref (Std.Async.AsyncTask Int)

def Alarm.start (signal : Std.Async.Signal) : IO Alarm := do
  let waiter ← Std.Async.Signal.Waiter.mk signal true
  return { waiter, next := ← IO.mkRef (← waiter.wait) }

def Alarm.hasRung (a : Alarm) : IO Bool := do
  match ← (← a.next.get).getState with
  | .finished =>
    a.next.set (← a.waiter.wait)
    return true
  | _ => return false

/-- The call of the tool that lists the kernel's connection table. This program cannot start others,
so the tool counts as missing. -/
def toolRun (host : Option String) : Kernel.ToolRun :=
  Kernel.query host (.notStarted (.os 2))

/-- What the clocks show, for a run that began at `start` on the monotonic clock. The time of day is
taken in whole microseconds. -/
def readClock (start : Nat) : IO Clock := do
  let now ← Std.Time.Timestamp.now
  return {
    elapsed := ⟨(← IO.monoNanosNow) - start⟩
    unix := Float.ofInt (now.toNanosecondsSinceUnixEpoch.val / 1000) / 1e6 }

/-- Lets the run act until nobody can, and writes what it has to say. -/
partial def act (c : Console) (run : Run) : IO Run := do
  c.publish run.session
  let run := run.move .written
  if run.ending?.isSome then return run
  if run.isAsking then
    let listing := (toolRun run.session.settings.hostAddress).listing
    act c (run.move (.answer run.clock.unix listing))
  else
    match run.step with
    | some run => act c run
    | none => return run

/-- The run after the signals that have come. -/
def takeSignals (alarms : List Alarm) (run : Run) : IO Run :=
  alarms.foldlM (fun run alarm => do
    return if ← alarm.hasRung then run.move .signal else run) run

/-- Attends to the run up to its end. -/
partial def attend (c : Console) (start : Nat) (inbox : Std.Mutex (List Run.Move))
    (alarms : List Alarm) (run : Run) : IO Run := do
  let run ← act c (run.move (.tick (← readClock start)))
  if run.ending?.isSome then return run
  IO.sleep 10
  let news ← inbox.atomically (modifyGet fun news => (news, []))
  attend c start inbox alarms (← takeSignals alarms (news.foldl Run.move run))

/-- Runs a session and answers with its exit status. -/
def supervise (c : Console) (settings : Settings) : IO UInt32 := do
  let start ← IO.monoNanosNow
  let session := (Session.ofSettings settings).announce
  c.publish session
  let inbox ← Std.Mutex.new []
  let alarms ← [.sigint, .sigterm, .sighup].mapM Alarm.start
  let taps ← [Tap.start .headers settings.headerPath inbox,
    Tap.start .connections settings.connectionPath inbox].mapM id
  let run ← attend c start inbox alarms (.start session.cleared 0.0 none none)
  let (status, session) := run.conclude (← readClock start).elapsed.wholeSeconds
  c.publish session
  taps.forM Tap.stop
  alarms.forM (·.waiter.stop)
  return UInt32.ofNat status

/-- Opens the file for the log, if one is wanted, and runs a session. -/
def start (invocation : CommandLine.Invocation) : IO UInt32 := do
  match ← attempt (invocation.logFile.mapM fun path => IO.FS.Handle.mk path .append) with
  | .error fault =>
    IO.eprintln (CommandLine.logFileRefused fault)
    return 1
  | .ok file =>
    let pid := (← Std.Internal.UV.System.osGetPid).toNat
    supervise { json := invocation.json, pid, file } invocation.settings

end FlowVerdict.Program

/-- The program: reads its command line and runs a session, or answers why it does not. -/
def main (arguments : List String) : IO UInt32 := do
  match FlowVerdict.CommandLine.read arguments with
  | .ok invocation => FlowVerdict.Program.start invocation
  | .error refusal =>
    match refusal with
    | .helpWanted => IO.println FlowVerdict.CommandLine.helpText
    | .versionWanted => IO.println FlowVerdict.CommandLine.versionText
    | .usage fault =>
      IO.eprintln ("error: " ++ fault.message ++ "\n\nFor more information, try '--help'.")
    return UInt32.ofNat refusal.status
