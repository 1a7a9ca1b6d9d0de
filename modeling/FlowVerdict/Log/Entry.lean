import FlowVerdict.Json.Printer
import FlowVerdict.Tally
import FlowVerdict.Text.Blank

/-!
# Entries of the operational log

What a session says about itself while it runs. An entry has two written forms: a plain sentence,
and a JSON object whose `event` member names its kind. Time and process are added where the line is
written.
-/

namespace FlowVerdict

/-- The sizes of the tables beside the counters, for a statistics entry. -/
structure Sizes where
  syns : Nat := 0
  connections : Nat := 0
  trackedFlows : Nat := 0
  trackedPorts : Nat := 0
deriving Repr, DecidableEq

/-- An entry of the log. -/
inductive LogEntry where
  | info (message : String)
  | warning (message : String)
  | workerStarted (worker detail : String)
  | malformedRecord (source error : String) (length : Nat) (data : String)
  | duplicateFlow (source flowId : String)
  | sourceClosed (source : String)
  | malformedRow (row : String)
  | trackingUnavailable (error : String)
  | outputFailed (error : String)
  | workerDied (worker : String)
  /-- A graceful shutdown, with the seconds until the end. -/
  | shutdownRequested (reason : String) (delay : Float)
  /-- A fast shutdown, with the milliseconds until the end. -/
  | fastShutdown (reason : String) (delay : Nat)
  | statistics (elapsed : Nat) (sizes : Sizes) (tally : Tally)
  | summary (duration : Nat) (tally : Tally)

namespace LogEntry

def counter (name : String) (n : Nat) : String :=
  name ++ "=" ++ toString n

def sentence (words : List String) : String :=
  " ".intercalate words

def plainStatistics (elapsed : Nat) (s : Sizes) (t : Tally) : String :=
  sentence [
    "[STATS] after " ++ toString elapsed ++ "s:",
    counter "syn_table" s.syns, counter "con_table" s.connections,
    counter "ct_syn_table" s.trackedFlows, counter "ct_con_table" s.trackedPorts,
    counter "ct_cycles" t.cycles, "|",
    counter "flows" t.accepted, counter "syn_scans" t.synScans, counter "no_syns" t.noSyns,
    counter "best_guesses" t.guesses, "|",
    counter "headers" t.headers, counter "connections" t.connections,
    counter "header_dups" t.headerDups, counter "connection_dups" t.connectionDups]

def plainSummary (duration : Nat) (t : Tally) : String :=
  sentence [
    "[SUMMARY] duration=" ++ toString duration ++ "s",
    counter "flows" t.accepted, counter "syn_scans" t.synScans, counter "no_syns" t.noSyns,
    counter "headers" t.headers, counter "connections" t.connections, "...bye!"]

def plain : LogEntry → String
  | info message => "[INFO] " ++ message
  | warning message => "[WARNING] " ++ message
  | workerStarted worker detail => "[" ++ worker ++ "] Thread started, " ++ detail
  | malformedRecord source error length data =>
    "[ERROR] Parsing JSON from " ++ source ++ " failed. Message: " ++ error ++ ", length: " ++
      toString length ++ ", data: " ++ Text.trimEnd data
  | duplicateFlow source flowId =>
    "[WARNING] Duplicate " ++ source ++ " flow ID " ++ flowId ++ ", keeping the newer record"
  | sourceClosed source => "[ERROR] Read zero bytes from " ++ source ++ ". Closed?"
  | malformedRow row => "[CONNTRACK] Skipping malformed row: " ++ row
  | trackingUnavailable error =>
    "[CONNTRACK] ERROR: conntrack could not be run (" ++ error ++
      "). Try: \"apt-get install conntrack\""
  | outputFailed error => "[ERROR] Writing event to output failed: " ++ error
  | workerDied worker => "[WATCHDOG] Thread " ++ worker ++ " died, shutting down..."
  | shutdownRequested reason delay =>
    "[SHUTDOWN] " ++ reason ++ ". Shutdown in " ++ Decimal.onePlace delay ++
      "sec, re-trigger to speed up..."
  | fastShutdown reason delay =>
    "[SHUTDOWN] " ++ reason ++ ". Fast shutdown in " ++ toString delay ++ "ms..."
  | statistics elapsed sizes tally => plainStatistics elapsed sizes tally
  | summary duration tally => plainSummary duration tally

def kind : LogEntry → String
  | info _ => "info"
  | warning _ => "warning"
  | workerStarted _ _ => "worker_started"
  | malformedRecord _ _ _ _ => "malformed_record"
  | duplicateFlow _ _ => "duplicate_flow"
  | sourceClosed _ => "source_closed"
  | malformedRow _ => "malformed_conntrack_row"
  | trackingUnavailable _ => "conntrack_unavailable"
  | outputFailed _ => "output_failed"
  | workerDied _ => "worker_died"
  | shutdownRequested _ _ => "shutdown_requested"
  | fastShutdown _ _ => "fast_shutdown"
  | statistics _ _ _ => "statistics"
  | summary _ _ => "session_summary"

/-- The members of an entry in its JSON form, its kind apart. -/
def members : LogEntry → Json.Members
  | info message | warning message => [("message", .str message)]
  | workerStarted worker detail => [("worker", .str worker), ("detail", .str detail)]
  | malformedRecord source error length data =>
    [("source", .str source), ("error", .str error), ("length", .ofNat length), ("data", .str data)]
  | duplicateFlow source flowId => [("source", .str source), ("flow_id", .str flowId)]
  | sourceClosed source => [("source", .str source)]
  | malformedRow row => [("row", .str row)]
  | trackingUnavailable error | outputFailed error => [("error", .str error)]
  | workerDied worker => [("worker", .str worker)]
  | shutdownRequested reason delay => [("reason", .str reason), ("delay_secs", .float delay)]
  | fastShutdown reason delay => [("reason", .str reason), ("delay_ms", .ofNat delay)]
  | statistics elapsed s t =>
    [("elapsed_secs", .ofNat elapsed), ("syn_table", .ofNat s.syns),
      ("con_table", .ofNat s.connections), ("ct_syn_table", .ofNat s.trackedFlows),
      ("ct_con_table", .ofNat s.trackedPorts), ("ct_cycles", .ofNat t.cycles),
      ("flows", .ofNat t.accepted), ("syn_scans", .ofNat t.synScans), ("no_syns", .ofNat t.noSyns),
      ("best_guesses", .ofNat t.guesses), ("headers", .ofNat t.headers),
      ("connections", .ofNat t.connections), ("header_dups", .ofNat t.headerDups),
      ("connection_dups", .ofNat t.connectionDups)]
  | summary duration t =>
    [("duration_secs", .ofNat duration), ("flows", .ofNat t.accepted),
      ("syn_scans", .ofNat t.synScans), ("no_syns", .ofNat t.noSyns),
      ("headers", .ofNat t.headers), ("connections", .ofNat t.connections)]

def jsonNatLimit : Nat := Nat.pow 2 64 - 1

/-- Whether an entry has a JSON form: its delay must be a number that JSON text holds. -/
def hasJson : LogEntry → Bool
  | fastShutdown _ delay => delay ≤ jsonNatLimit
  | _ => true

/-- The JSON form of an entry with further members, sorted by name; `null` for an entry that has
none. -/
def toJson (e : LogEntry) (further : Json.Members := []) : Json :=
  if e.hasJson then .obj (Json.Members.sorted (("event", .str e.kind) :: e.members ++ further))
  else .null

end LogEntry

end FlowVerdict
