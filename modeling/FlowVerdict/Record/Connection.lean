import FlowVerdict.Record.Syn

/-!
# Connection records

One accepted connection as the connection stream reports it.
-/

namespace FlowVerdict

open Json (Reader Field Schema)

structure Connection where
  timestamp : String
  srcIp : String
  srcPort : UInt16
  destIp : String
  destPort : UInt16
  proto : String
  eventType : String
  unixtime : Float
  /-- What the monitor knows of the data that went through, in its own form. -/
  flow : Option Json
  /-- Set only while the kernel's connection table is sampled. -/
  status : Option TrackingStatus := none

namespace Connection

def flowId (con : Connection) : FlowId :=
  .ofPorts con.srcIp con.destPort con.srcPort

structure Draft where
  timestamp : Option String := none
  srcIp : Option String := none
  srcPort : Option UInt16 := none
  destIp : Option String := none
  destPort : Option UInt16 := none
  proto : Option String := none
  eventType : Option String := none
  unixtime : Option Float := none
  flow : Option (Option Json) := none

/-- How a connection is read, with room for `depth` arrays and objects inside it. -/
def schema (depth : Nat) : Schema Draft Connection where
  title := "struct ConnectionRecord"
  fields := [
    .of "timestamp" false Json.readText (·.timestamp) fun draft value =>
      { draft with timestamp := some value },
    .of "src_ip" true Json.readText (·.srcIp) fun draft value => { draft with srcIp := some value },
    .of "src_port" true Json.readPort (·.srcPort) fun draft value =>
      { draft with srcPort := some value },
    .of "dest_ip" true Json.readText (·.destIp) fun draft value =>
      { draft with destIp := some value },
    .of "dest_port" true Json.readPort (·.destPort) fun draft value =>
      { draft with destPort := some value },
    .of "proto" false Json.readText (·.proto) fun draft value => { draft with proto := some value },
    .of "event_type" false Json.readText (·.eventType) fun draft value =>
      { draft with eventType := some value },
    .of "unixtime" true Json.readDouble (·.unixtime) fun draft value =>
      { draft with unixtime := some value },
    .of "FLOW" false (Json.readOptional depth) (·.flow) fun draft value =>
      { draft with flow := some value }]
  blank := {}
  other := Json.ignoreOther
  fromArray := true
  finish draft := do
    let srcIp ← draft.srcIp
    let srcPort ← draft.srcPort
    let destIp ← draft.destIp
    let destPort ← draft.destPort
    let unixtime ← draft.unixtime
    some {
      timestamp := draft.timestamp.getD ""
      srcIp, srcPort, destIp, destPort
      proto := draft.proto.getD "TCP"
      eventType := draft.eventType.getD ""
      unixtime
      flow := draft.flow.join }

def parse (line : Json.Bytes) : Except Json.Fault Connection :=
  Json.readWhole ((schema (Json.nestingLimit - 1)).read Json.nestingLimit) line

end Connection

end FlowVerdict
