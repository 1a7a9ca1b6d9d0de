import FlowVerdict.Flow
import FlowVerdict.Record.Header

/-!
# SYN records

One TCP SYN as the header stream reports it, and what the kernel's connection table said about its
flow.
-/

namespace FlowVerdict

open Json (Reader Field Schema)

/-- What connection tracking found out about the flow of a record. -/
inductive TrackingStatus where
  /-- The kernel has no entry for the flow. -/
  | absent
  /-- The kernel tracks the flow, with the port of the record. -/
  | found
  /-- The kernel tracks the flow from another port, and the record was corrected. -/
  | changed
  /-- The kernel's entry could not be used. -/
  | failed
deriving Repr, DecidableEq

def TrackingStatus.name : TrackingStatus → String
  | .absent => "None"
  | .found => "Found"
  | .changed => "Changed"
  | .failed => "Failed"

def TrackingStatus.toJson? (status : Option TrackingStatus) : Json :=
  Json.ofText? (status.map name)

structure Syn where
  timestamp : String
  unixtime : Float
  ip : IpHeader
  tcp : TcpHeader
  /-- Unset until a scan pass first examines the record. -/
  status : Option TrackingStatus := none

namespace Syn

def flowId (syn : Syn) : FlowId :=
  .ofPorts syn.ip.srcAddr syn.tcp.destPort syn.tcp.srcPort

structure Draft where
  timestamp : Option String := none
  unixtime : Option Float := none
  ip : Option IpHeader := none
  tcp : Option TcpHeader := none

/-- How a SYN is read, with room for `depth` arrays and objects inside it. -/
def schema (depth : Nat) : Schema Draft Syn where
  title := "struct SynRecord"
  fields := [
    .of "timestamp" false Json.readText (·.timestamp) fun draft value =>
      { draft with timestamp := some value },
    .of "unixtime" true Json.readDouble (·.unixtime) fun draft value =>
      { draft with unixtime := some value },
    .of "IP" true (IpHeader.read depth) (·.ip) fun draft value => { draft with ip := some value },
    .of "TCP" true (TcpHeader.read depth) (·.tcp) fun draft value => { draft with tcp := some value }]
  blank := {}
  other := Json.ignoreOther
  fromArray := true
  finish draft := do
    let unixtime ← draft.unixtime
    let ip ← draft.ip
    let tcp ← draft.tcp
    some { timestamp := draft.timestamp.getD "", unixtime, ip, tcp }

def parse (line : Json.Bytes) : Except Json.Fault Syn :=
  Json.readWhole ((schema (Json.nestingLimit - 1)).read Json.nestingLimit) line

end Syn

end FlowVerdict
