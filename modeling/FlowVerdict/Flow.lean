/-!
# Flow identifiers

A flow is known by the text `srcIP_destPort+srcPort`, which both streams of records can write for
themselves. Without its source port it is the relaxed key `srcIP_destPort`: what is left of a flow
when NAT has changed the port on one side.
-/

namespace FlowVerdict

/-- The identifier of a flow. Source ports are used again, so it tells flows apart only among those
pending at one time. -/
structure FlowId where
  text : String
deriving Repr, DecidableEq

/-- What the identifiers of all flows from one address to one port have in common. -/
structure RelaxedKey where
  text : String
deriving Repr, DecidableEq

/-- The part of a text before the last `c`; the whole text if there is none. -/
def beforeLast (c : Char) (text : List Char) : List Char :=
  if c ∈ text then ((text.reverse.dropWhile (· ≠ c)).drop 1).reverse else text

namespace FlowId

/-- The identifier of a flow whose ports are given as text. -/
def ofParts (source destPort srcPort : String) : FlowId :=
  ⟨source ++ "_" ++ destPort ++ "+" ++ srcPort⟩

def ofPorts (source : String) (destPort srcPort : UInt16) : FlowId :=
  ofParts source (toString destPort) (toString srcPort)

def relaxed (id : FlowId) : RelaxedKey :=
  ⟨String.ofList (beforeLast '+' id.text.toList)⟩

/-- The order of identifiers is that of their texts, character by character. -/
def le (a b : FlowId) : Bool :=
  a.text ≤ b.text

end FlowId

end FlowVerdict
