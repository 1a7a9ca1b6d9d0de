import FlowVerdict.Json.Schema

/-!
# Packet headers

The IP and the TCP header of a SYN as the header stream delivers them. Addresses and ports are
interpreted; every other member is kept as it stands, sorted by its name, and written back after the
declared ones.
-/

namespace FlowVerdict

open Json (Reader Field Schema Members)

structure IpHeader where
  srcAddr : String
  destAddr : String
  /-- The members that are not interpreted. -/
  others : Members

structure TcpHeader where
  srcPort : UInt16
  destPort : UInt16
  /-- The members that are not interpreted. -/
  others : Members

/-- A member that is kept: its value is put among those read before. -/
def keepOther (depth : Nat) (name : String) (others : Members) : Reader Members := fun text => do
  let (value, rest) ← Json.readValue depth text
  .ok (others.put name value, rest)

/-- A header under way: its two declared members, and all others. -/
structure HeaderDraft (α : Type) where
  first : Option α := none
  second : Option α := none
  others : Members := []

/-- How a header of two declared members is read, with room for `depth` arrays and objects inside
it. -/
def headerSchema {α ρ : Type} (title first second : String) (reader : Reader α)
    (build : α → α → Members → ρ) (depth : Nat) : Schema (HeaderDraft α) ρ where
  title := title
  fields := [
    .of first true reader (·.first) fun draft value => { draft with first := some value },
    .of second true reader (·.second) fun draft value => { draft with second := some value }]
  blank := {}
  other draft name text := do
    let (others, rest) ← keepOther depth name draft.others text
    .ok ({ draft with others }, rest)
  fromArray := false
  finish draft := do
    let first ← draft.first
    let second ← draft.second
    some (build first second draft.others)

namespace IpHeader

def toJson (h : IpHeader) : Json :=
  .obj ([("src_addr", .str h.srcAddr), ("dest_addr", .str h.destAddr)] ++ h.others)

def schema (depth : Nat) : Schema (HeaderDraft String) IpHeader :=
  headerSchema "struct IpHeader" "src_addr" "dest_addr" Json.readText IpHeader.mk depth

def read (depth : Nat) : Reader IpHeader :=
  (schema (depth - 1)).read depth

end IpHeader

namespace TcpHeader

/-- Whether the flow was handed on to a backend. Only an explicit `false`, as a truth value or as a
word in any case of letters, says that it was not. -/
def isProxied (h : TcpHeader) : Bool :=
  match h.others.get? "proxied" with
  | some (.bool proxied) => proxied
  | some (.str word) => String.ofList (word.toList.map Char.toLower) != "false"
  | _ => true

def toJson (h : TcpHeader) : Json :=
  .obj ([("src_port", .ofNat h.srcPort.toNat), ("dest_port", .ofNat h.destPort.toNat)] ++ h.others)

def schema (depth : Nat) : Schema (HeaderDraft UInt16) TcpHeader :=
  headerSchema "struct TcpHeader" "src_port" "dest_port" Json.readPort TcpHeader.mk depth

def read (depth : Nat) : Reader TcpHeader :=
  (schema (depth - 1)).read depth

end TcpHeader

end FlowVerdict
