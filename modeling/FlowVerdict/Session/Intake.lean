import FlowVerdict.Session.Basic

/-!
# Intake of records

What a line of either stream does to a session. A line that is no record is logged and dropped. A
SYN is filed under its flow unless the session is shutting down. A connection is first corrected by
the kernel's snapshot, for which it may have to wait, and then filed under the flow that it has
after that.
-/

namespace FlowVerdict

/-- The names of the two streams in the log. -/
def headerSource : String := "header stream"

@[inherit_doc headerSource]
def connectionSource : String := "connection stream"

structure Held where
  wait : Kernel.Wait
  connection : Connection

namespace Session

def logMalformed (source : String) (fault : Json.Fault) (line : Json.Bytes) (s : Session) :
    Session :=
  s.log (.malformedRecord source fault.message line.length (Text.Utf8.decodeLossy line))

/-- Files a SYN under its flow; one that was pending there is replaced. -/
def fileSyn (syn : Syn) (s : Session) : Session :=
  let id := syn.flowId
  let filed :=
    { s with
      syns := s.syns.insert id syn
      tally := { s.tally with headers := s.tally.headers + 1 } }
  if s.syns.contains id then
    { filed with tally := { filed.tally with headerDups := filed.tally.headerDups + 1 } }.log
      (.duplicateFlow headerSource id.text)
  else filed

/-- A line of the header stream. During a shutdown it is dropped: its SYN could not be answered any
more and would look like a scan. -/
def ingestSyn (line : Json.Bytes) (s : Session) : Session :=
  if s.shutdown.graceful then s
  else
    match Syn.parse line with
    | .error fault => s.logMalformed headerSource fault line
    | .ok syn => s.fileSyn syn

/-- A connection as the snapshot corrects it. -/
def reconciled (con : Connection) (s : Session) : Connection :=
  match s.snapshot with
  | some snapshot => snapshot.reconcile con
  | none => con

/-- Corrects a connection and files it under its flow; one that was pending there is replaced. -/
def fileConnection (con : Connection) (s : Session) : Session :=
  let con := s.reconciled con
  let id := con.flowId
  let filed := { s with connections := s.connections.insert id con }
  if s.connections.contains id then
    { filed with tally := { s.tally with connectionDups := s.tally.connectionDups + 1 } }.log
      (.duplicateFlow connectionSource id.text)
  else filed

/-- Goes on with a connection that waits: it is filed if the wait is over, dropped if a fast
shutdown is on, and held for longer otherwise. -/
def settle (held : Held) (s : Session) : Option Held × Session :=
  if s.isReady held.wait then (none, s.fileConnection held.connection)
  else if s.shutdown.fast then (none, s)
  else (some held, s)

/-- A line of the connection stream. The answer is the connection if it has to wait. -/
def ingestConnection (line : Json.Bytes) (s : Session) : Option Held × Session :=
  match Connection.parse line with
  | .error fault => (none, s.logMalformed connectionSource fault line)
  | .ok con =>
    let s := { s with tally := { s.tally with connections := s.tally.connections + 1 } }
    match s.waitFor? con.unixtime with
    | none => (none, s.fileConnection con)
    | some wait => s.settle { wait, connection := con }

end Session

end FlowVerdict
