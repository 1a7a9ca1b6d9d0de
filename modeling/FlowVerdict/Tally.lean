import FlowVerdict.Event

/-!
# Counters of a session

What a session has counted so far: records that came in, those that replaced an earlier one, events
by verdict, guesses, and listings of the kernel's connection table.
-/

namespace FlowVerdict

structure Tally where
  /-- SYN records that were filed. -/
  headers : Nat := 0
  /-- Those of them that replaced an earlier one. -/
  headerDups : Nat := 0
  /-- Connection records that were read. -/
  connections : Nat := 0
  /-- Those of them that replaced an earlier one. -/
  connectionDups : Nat := 0
  accepted : Nat := 0
  synScans : Nat := 0
  noSyns : Nat := 0
  /-- The accepted connections whose SYN was guessed. -/
  guesses : Nat := 0
  /-- Listings taken by the sampler. -/
  cycles : Nat := 0
deriving Repr, DecidableEq

def Tally.count (t : Tally) : Verdict → Tally
  | .accepted => { t with accepted := t.accepted + 1 }
  | .noSyn => { t with noSyns := t.noSyns + 1 }
  | .synScan => { t with synScans := t.synScans + 1 }

end FlowVerdict
