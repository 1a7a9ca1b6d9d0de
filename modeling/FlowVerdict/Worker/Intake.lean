import FlowVerdict.Session.Intake
import FlowVerdict.Stream
import FlowVerdict.Worker.Clock

/-!
# The intakes at work

An intake opens its pipe and takes up line after line. The intake of connections holds a line back
for as long as that line has to wait for a snapshot.
-/

namespace FlowVerdict

/-- The two pipes that a session reads. -/
inductive Feed where
  | headers
  | connections
deriving Repr, DecidableEq

namespace Feed

def title : Feed → String
  | headers => "SYN TABLE BUILDER"
  | connections => "CONNECTION TABLE BUILDER"

def path (settings : Settings) : Feed → String
  | headers => settings.headerPath
  | connections => settings.connectionPath

def ingest (line : Json.Bytes) (s : Session) : Feed → Option Held × Session
  | headers => (none, s.ingestSyn line)
  | connections => s.ingestConnection line

end Feed

/-- How the opening of a pipe went; nothing as long as it has not come about, since it waits for
somebody who writes. -/
abbrev Pipe := Option (Except IoFault Stream)

/-- What an intake is doing. -/
inductive Intake where
  | starting (pipe : Pipe)
  | opening (pipe : Pipe)
  | reading (rest : Stream)
  | holding (held : Held) (rest : Stream)
  | ended (outcome : Outcome)

namespace Intake

def announce (feed : Feed) (s : Session) : Session :=
  s.log (.workerStarted feed.title ("reading " ++ feed.path s.settings))

/-- What follows from how the opening of the pipe went. -/
def opened (feed : Feed) (s : Session) : Except IoFault Stream → Intake
  | .error fault => .ended (.failed (.sourceOpen (feed.path s.settings) fault))
  | .ok rest => .reading rest

/-- The intake after a line, which may have to be held. -/
def after (rest : Stream) : Option Held × Session → Intake × Session
  | (none, s) => (.reading rest, s)
  | (some held, s) => (.holding held rest, s)

/-- What an intake does now; nothing if it has to wait. -/
def step (feed : Feed) (s : Session) : Intake → Option (Intake × Session)
  | starting pipe => some (.opening pipe, announce feed s)
  | opening pipe => pipe.map fun source => (opened feed s source, s)
  | reading stream =>
    if s.shutdown.fast then some (.ended .done, s)
    else
      let path := feed.path s.settings
      match stream.next with
      | .ended .closed => some (.ended (.failed (.sourceClosed path)), s)
      | .ended (.failed fault) => some (.ended (.failed (.sourceRead path fault)), s)
      | .ended .silent => none
      | .line line rest =>
        if Stream.isBlankLine line then some (.reading rest, s)
        else some (after rest (feed.ingest line s))
  | holding held rest =>
    match s.settle held with
    | (none, s) => some (.reading rest, s)
    | (some _, _) => none
  | ended _ => none

/-- The intake once the opening of its pipe has come about. -/
def withSource (source : Except IoFault Stream) : Intake → Intake
  | starting none => .starting (some source)
  | opening none => .opening (some source)
  | other => other

/-- The intake with more input behind what it has not read yet. -/
def feed (arrived : Stream) : Intake → Intake
  | starting (some (.ok rest)) => .starting (some (.ok (rest.append arrived)))
  | opening (some (.ok rest)) => .opening (some (.ok (rest.append arrived)))
  | reading rest => .reading (rest.append arrived)
  | holding held rest => .holding held (rest.append arrived)
  | other => other

end Intake

end FlowVerdict
