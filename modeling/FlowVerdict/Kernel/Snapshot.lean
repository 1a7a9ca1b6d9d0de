import FlowVerdict.Kernel.Row
import FlowVerdict.Record.Connection
import FlowVerdict.Table

/-!
# The snapshot of the kernel's connection table

Two tables folded from the listings of all cycles. One knows for a flow as the connection stream
names it the source port before NAT, so that a connection can be corrected. The other knows
for a flow as the header stream names it how long it has been gone, so that a slow handshake is not
taken for a scan. A flow that the kernel has stopped listing is remembered for its last kernel
timeout, counted down by one per cycle, and then for a grace period. A cycle ages, evicts, merges
and publishes in one step.
-/

namespace FlowVerdict.Kernel

/-- The age of a flow in the snapshot. -/
inductive Liveness where
  /-- Listed in the latest cycle, with its kernel timeout. -/
  | fresh (timeout : Nat)
  /-- No longer listed; the timeout still runs. -/
  | stale (remaining : Nat)
  /-- The timeout is over; kept for some more cycles. -/
  | grace (remaining : Nat)
deriving Repr, DecidableEq

/-- The state one cycle later, or `none` when the flow is to be forgotten. -/
def Liveness.age (grace : Nat) : Liveness → Option Liveness
  | .fresh timeout => some (.stale timeout)
  | .stale 0 => some (.grace grace)
  | .stale (remaining + 1) => some (.stale remaining)
  | .grace 0 => none
  | .grace (remaining + 1) => some (.grace remaining)

/-- A flow of the snapshot, under the name that the header stream has for it. -/
structure Tracked where
  /-- The name that the connection stream has for the flow. -/
  conKey : FlowId
  liveness : Liveness
deriving Repr, DecidableEq

/-- Which listing a snapshot rests on. -/
structure Publication where
  /-- The time right before the listing was asked for. -/
  stamp : Float := 0.0
  /-- The number of listings so far. -/
  sequence : Nat := 0

/-- What is known of the kernel's connection table. -/
structure Snapshot where
  /-- Source ports before NAT, by the flow's name in the connection stream. -/
  ports : Table FlowId (Option UInt16) := .empty
  /-- The flows that are alive, by their name in the header stream. -/
  flows : Table FlowId Tracked := .empty
  published : Publication := {}
  /-- The cycles for which a vanished flow is kept. -/
  grace : Nat

structure Cycle where
  /-- The number of rows taken up. -/
  merged : Nat := 0
  /-- The rows that could not be read, in their order. -/
  malformed : List String := []
deriving Repr, DecidableEq

namespace Snapshot

/-- The names in the connection stream of the flows that age out. -/
def evicted (s : Snapshot) : List FlowId :=
  s.flows.values.filterMap fun flow =>
    if (flow.liveness.age s.grace).isNone then some flow.conKey else none

/-- The snapshot one cycle older: flows that age out leave both tables. -/
def age (s : Snapshot) : Snapshot :=
  { s with
    flows := s.flows.filterMap fun _ flow =>
      (flow.liveness.age s.grace).map fun liveness => { flow with liveness }
    ports := s.ports.eraseAll s.evicted }

/-- Takes up a row. A flow that was known under another name in the connection stream loses that
name. -/
def merge (s : Snapshot) (row : Row) : Snapshot :=
  let ports := s.ports.insert row.conKey row.srcPort
  let ports :=
    match s.flows.get? row.synKey with
    | some before => if before.conKey ≠ row.conKey then ports.erase before.conKey else ports
    | none => ports
  { s with ports, flows := s.flows.insert row.synKey ⟨row.conKey, .fresh row.timeout⟩ }

def mergeLine (state : Snapshot × Cycle) (line : String) : Snapshot × Cycle :=
  let (s, cycle) := state
  match Reading.ofText line with
  | .tracked row => (s.merge row, { cycle with merged := cycle.merged + 1 })
  | .ignored => (s, cycle)
  | .malformed => (s, { cycle with malformed := cycle.malformed ++ [line] })

def listingLines (listing : String) : List String :=
  (Text.lines listing).filter fun line => !Text.isBlankText line

/-- One cycle: the snapshot ages, takes up the listing and is published with the stamp. -/
def cycle (s : Snapshot) (listing : String) (stamp : Float) : Snapshot × Cycle :=
  let (s, report) := (listingLines listing).foldl mergeLine (s.age, {})
  ({ s with published := { stamp, sequence := s.published.sequence + 1 } }, report)

/-- Whether a flow, by its name in the header stream, is or was lately known to the kernel. -/
def isLive (s : Snapshot) (id : FlowId) : Bool :=
  s.flows.contains id

/-- Corrects a connection: its source port becomes the one before NAT, and its status says
what the snapshot knew of it. -/
def reconcile (s : Snapshot) (con : Connection) : Connection :=
  match s.ports.get? con.flowId with
  | none => { con with status := some .absent }
  | some none => { con with status := some .failed }
  | some (some port) =>
    if port = con.srcPort then { con with status := some .found }
    else { con with srcPort := port, status := some .changed }

end Snapshot

/-- A record that waits for a snapshot that is new enough for it. -/
structure Wait where
  /-- The time of the record. -/
  unixtime : Float
  /-- The number of listings when the wait began. -/
  since : Nat

/-- A wait is over once a snapshot at least as new as the record is published, or any snapshot since
the wait began. -/
def Wait.isOver (w : Wait) (p : Publication) : Bool :=
  !(decide (p.stamp < w.unixtime) && p.sequence == w.since)

end FlowVerdict.Kernel
