import FlowVerdict.Record.Syn
import FlowVerdict.Table

/-!
# Pending SYNs

The SYNs that wait for their connection, by flow, and beside them an index from each relaxed key to
the flows that share it, so that a guess need not look at every SYN. Every operation keeps the two
in step.

Records carry their time as fractional Unix seconds. Ages are compared as numbers, but the order of
records must be total, so it is taken from `Timestamp.rank`: the numbers in their order, the
negative zero before the positive one, and what is no number at the ends.
-/

namespace FlowVerdict

namespace Timestamp

/-- The place of a timestamp in the total order of doubles. -/
def rank (time : Float) : Int :=
  let bits : Nat := time.toBits.toNat
  if bits < Nat.pow 2 63 then bits else (Nat.pow 2 63 : Int) - 1 - bits

/-- Whether `a` comes no later than `b`. -/
def le (a b : Float) : Bool :=
  rank a ≤ rank b

/-- The later of two timestamps; the second one if they have the same place. -/
def later (a b : Float) : Float :=
  if rank a ≤ rank b then b else a

end Timestamp

structure SynTable where
  records : Table FlowId Syn := .empty
  /-- The flows of each relaxed key, in their order, none of them twice. -/
  index : Table RelaxedKey (List FlowId) := .empty

namespace SynTable

/-- Adds a flow to an ordered list of flows. -/
def addFlow (id : FlowId) : List FlowId → List FlowId
  | [] => [id]
  | other :: rest =>
    if id = other then other :: rest
    else if id.le other then id :: other :: rest
    else other :: addFlow id rest

def enter (index : Table RelaxedKey (List FlowId)) (id : FlowId) :
    Table RelaxedKey (List FlowId) :=
  index.insert id.relaxed (addFlow id ((index.get? id.relaxed).getD []))

/-- The index with a flow removed; a key without flows goes too. -/
def leave (index : Table RelaxedKey (List FlowId)) (id : FlowId) :
    Table RelaxedKey (List FlowId) :=
  match index.get? id.relaxed with
  | none => index
  | some ids =>
    match ids.erase id with
    | [] => index.erase id.relaxed
    | rest => index.insert id.relaxed rest

/-- Files a SYN under a flow; one that was there is replaced. -/
def insert (t : SynTable) (id : FlowId) (syn : Syn) : SynTable where
  records := t.records.insert id syn
  index := enter t.index id

def get? (t : SynTable) (id : FlowId) : Option Syn :=
  t.records.get? id

def contains (t : SynTable) (id : FlowId) : Bool :=
  t.records.contains id

def modify (t : SynTable) (id : FlowId) (f : Syn → Syn) : SynTable :=
  { t with records := t.records.modify id f }

def take? (t : SynTable) (id : FlowId) : Option (Syn × SynTable) :=
  (t.records.get? id).map fun syn =>
    (syn, { records := t.records.erase id, index := leave t.index id })

/-- The first of several flows whose SYN is the oldest. -/
def oldest? (t : SynTable) : List FlowId → Option (FlowId × Float)
  | [] => none
  | id :: rest =>
    match t.get? id, t.oldest? rest with
    | none, found => found
    | some syn, none => some (id, syn.unixtime)
    | some syn, some (other, time) =>
      if Timestamp.le syn.unixtime time then some (id, syn.unixtime) else some (other, time)

/-- Removes the oldest SYN with a relaxed key; of several equally old ones the first in the order of
flows. -/
def takeRelaxed? (t : SynTable) (key : RelaxedKey) : Option (FlowId × Syn × SynTable) := do
  let ids ← t.index.get? key
  let (id, _) ← t.oldest? ids
  let (syn, rest) ← t.take? id
  some (id, syn, rest)

/-- The flows with a pending SYN, in the order in which a pass visits them. -/
def keys (t : SynTable) : List FlowId :=
  t.records.keys

/-- The time of the newest pending SYN. -/
def newest? (t : SynTable) : Option Float :=
  match t.records.values with
  | [] => none
  | syn :: rest => some (rest.foldl (fun time s => Timestamp.later time s.unixtime) syn.unixtime)

def size (t : SynTable) : Nat :=
  t.records.size

def isEmpty (t : SynTable) : Bool :=
  t.records.isEmpty

end SynTable

end FlowVerdict
