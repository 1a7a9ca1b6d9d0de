import FlowVerdict.Record.Connection
import FlowVerdict.Json.Printer

/-!
# Classified flows

The verdict on a flow: a connection joined with its SYN, a connection whose SYN never showed up, or
a SYN that never became a connection. Each is written once, as one line of JSON.
-/

namespace FlowVerdict

inductive Verdict where
  /-- A connection joined with its SYN. -/
  | accepted
  /-- A connection without SYN. -/
  | noSyn
  /-- A SYN without connection. -/
  | synScan
deriving Repr, DecidableEq

/-- A classified flow. -/
structure Event where
  verdict : Verdict
  timestamp : String
  srcIp : String
  srcPort : UInt16
  destIp : String
  destPort : UInt16
  proto : String
  eventType : String
  unixtime : Float
  /-- What the monitor knows of the connection's data; absent for a SYN. -/
  flow : Option Json
  ip : IpHeader
  tcp : Option TcpHeader
  status : Option TrackingStatus
  /-- Whether the pair was guessed; absent while guessing is off. -/
  guessed : Option Bool

namespace Event

def origin : String := "MADCAT"

/-- A connection joined with its SYN. The source port is the SYN's: after a guess it is the only one
to be trusted. -/
def accepted (con : Connection) (syn : Syn) (guessed : Option Bool) : Event where
  verdict := .accepted
  timestamp := con.timestamp
  srcIp := con.srcIp
  srcPort := syn.tcp.srcPort
  destIp := con.destIp
  destPort := con.destPort
  proto := con.proto
  eventType := con.eventType
  unixtime := con.unixtime
  flow := some (con.flow.getD .null)
  ip := syn.ip
  tcp := some syn.tcp
  status := con.status
  guessed := guessed

/-- A connection whose SYN never showed up. Its addresses stand in for the missing IP header. -/
def noSyn (con : Connection) : Event where
  verdict := .noSyn
  timestamp := con.timestamp
  srcIp := con.srcIp
  srcPort := con.srcPort
  destIp := con.destIp
  destPort := con.destPort
  proto := con.proto
  eventType := "no_syn"
  unixtime := con.unixtime
  flow := some (con.flow.getD .null)
  ip := { srcAddr := con.srcIp, destAddr := con.destIp, others := [] }
  tcp := none
  status := con.status
  guessed := none

/-- A SYN that never became a connection. -/
def synScan (syn : Syn) : Event where
  verdict := .synScan
  timestamp := syn.timestamp
  srcIp := syn.ip.srcAddr
  srcPort := syn.tcp.srcPort
  destIp := syn.ip.destAddr
  destPort := syn.tcp.destPort
  proto := "TCP"
  eventType := "syn_scan"
  unixtime := syn.unixtime
  flow := none
  ip := syn.ip
  tcp := some syn.tcp
  status := some (syn.status.getD .absent)
  guessed := none

/-- A member that is left out where it has no value. -/
def optionalMember (name : String) : Option Json → Json.Members
  | some value => [(name, value)]
  | none => []

/-- The event as JSON, its members in the order of the stream. -/
def toJson (e : Event) : Json :=
  .obj ([
    ("origin", .str origin),
    ("timestamp", .str e.timestamp),
    ("src_ip", .str e.srcIp),
    ("src_port", .ofNat e.srcPort.toNat),
    ("dest_ip", .str e.destIp),
    ("dest_port", .ofNat e.destPort.toNat),
    ("proto", .str e.proto),
    ("event_type", .str e.eventType),
    ("unixtime", .float e.unixtime)]
    ++ optionalMember "FLOW" e.flow
    ++ [("IP", e.ip.toJson)]
    ++ optionalMember "TCP" (e.tcp.map (·.toJson))
    ++ [("ct_status", TrackingStatus.toJson? e.status)]
    ++ optionalMember "best_guess_match" (e.guessed.map .bool))

/-- The line of the event, without its line feed. -/
def line (e : Event) : String :=
  e.toJson.write

end Event

end FlowVerdict
