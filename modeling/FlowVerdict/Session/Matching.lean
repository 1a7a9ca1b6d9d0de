import FlowVerdict.Session.Basic

/-!
# Matching

One pass of the matcher over the pending connections, oldest first. First every connection takes the
SYN of its own flow, if there is one. Then, if guessing is on, a connection past its age takes the
oldest SYN with its relaxed key; and what still has no SYN is reported without one once it is too
old, unless the session is shutting down or holds such verdicts back. Since the first sweep takes
all exact pairs, no guess takes a SYN that belongs to another pending connection.
-/

namespace FlowVerdict

structure PassReport where
  exact : Nat := 0
  guessed : Nat := 0
  noSyn : Nat := 0
  pending : Nat := 0
deriving Repr, DecidableEq

/-- The flows of the pending connections, oldest first; equally old ones in the order of the
table. -/
def ConnectionTable.byAge (t : ConnectionTable) : List FlowId :=
  (t.entries.mergeSort fun a b => Timestamp.le a.2.unixtime b.2.unixtime).map Prod.fst

namespace Session

/-- Joins the connection of a flow with the SYN of that flow, if there are both. -/
def matchExact (state : Session × PassReport) (id : FlowId) : Session × PassReport :=
  let (s, report) := state
  match s.connections.get? id, s.syns.take? id with
  | some con, some (syn, syns) =>
    let s := { s with connections := s.connections.erase id, syns }
    (s.emit (.accepted con syn (s.settings.guessAfter.map fun _ => false)),
      { report with exact := report.exact + 1 })
  | _, _ => state

/-- The SYN that is guessed for a connection: the oldest with its relaxed key, if guessing is on and
the connection is past its age. -/
def guess? (now : Float) (id : FlowId) (con : Connection) (s : Session) :
    Option (Syn × SynTable) := do
  let limit ← s.settings.guessAfter
  if limit < now - con.unixtime then
    let (_, syn, syns) ← s.syns.takeRelaxed? id.relaxed
    some (syn, syns)
  else none

/-- Whether verdicts without SYN are held back until no SYN is pending. -/
def holdsBack (s : Session) : Bool :=
  s.settings.synEmptyQueue && !s.syns.isEmpty

/-- Whether a connection is reported without SYN. -/
def lacksSyn (now : Float) (con : Connection) (s : Session) : Bool :=
  !s.shutdown.graceful && !s.holdsBack && s.settings.noSynAfter < now - con.unixtime

/-- Decides about the connection of a flow that has no SYN of its own. -/
def decideRest (now : Float) (state : Session × PassReport) (id : FlowId) : Session × PassReport :=
  let (s, report) := state
  match s.connections.get? id with
  | none => state
  | some con =>
    match s.guess? now id con with
    | some (syn, syns) =>
      let s :=
        { s with
          connections := s.connections.erase id
          syns
          tally := { s.tally with guesses := s.tally.guesses + 1 } }
      (s.emit (.accepted con syn (some true)), { report with guessed := report.guessed + 1 })
    | none =>
      if s.lacksSyn now con then
        ({ s with connections := s.connections.erase id }.emit (.noSyn con),
          { report with noSyn := report.noSyn + 1 })
      else (s, { report with pending := report.pending + 1 })

/-- One pass of the matcher at the time `now`. -/
def matchPass (now : Float) (s : Session) : PassReport × Session :=
  let (s, report) := s.connections.byAge.foldl matchExact (s, {})
  let (s, report) := s.connections.byAge.foldl (decideRest now) (s, report)
  (report, s)

end Session

end FlowVerdict
