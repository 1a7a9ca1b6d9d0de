import FlowVerdict.Session.Basic

/-!
# Scan detection

One pass of the scan detector over the pending SYNs. A SYN that is past its age is reported as a
scan and leaves its table. While the kernel's connection table is sampled, a SYN whose flow the
kernel still knows is left alone, and a SYN that the snapshot is too old for is not examined at all.
-/

namespace FlowVerdict.Session

/-- The time of the published snapshot, up to which a pass relies on it. There is none without
sampling. -/
def horizon? (s : Session) : Option Float :=
  s.snapshot.map (·.published.stamp)

/-- What the snapshot says about a SYN: nothing if the SYN is beyond the horizon of the pass,
otherwise whether its flow is alive. Without sampling no flow is. -/
def liveness? (horizon : Option Float) (id : FlowId) (syn : Syn) (s : Session) : Option Bool :=
  match s.snapshot, horizon with
  | some snapshot, some stamp =>
    if stamp < syn.unixtime then none else some (snapshot.isLive id)
  | _, _ => some false

/-- The status of a SYN that was examined: once found alive it stays so. -/
def examined (live : Bool) (syn : Syn) : Syn :=
  { syn with status := if live then some .found else some (syn.status.getD .absent) }

/-- Whether a SYN is past its age. -/
def isExpired (now : Float) (syn : Syn) (s : Session) : Bool :=
  !decide (now - syn.unixtime ≤ s.settings.scanAfter syn.tcp.isProxied)

/-- Examines the SYN of a flow and reports it as a scan if it is due. -/
def scanOne (horizon : Option Float) (now : Float) (state : Session × Nat) (id : FlowId) :
    Session × Nat :=
  let (s, emitted) := state
  match s.syns.get? id with
  | none => state
  | some syn =>
    match s.liveness? horizon id syn with
    | none => state
    | some live =>
      let syn := examined live syn
      if !live && s.isExpired now syn then
        match s.syns.take? id with
        | some (_, syns) => ({ s with syns }.emit (.synScan syn), emitted + 1)
        | none => state
      else ({ s with syns := s.syns.modify id (examined live) }, emitted)

/-- One pass of the scan detector at the time `now`, with the snapshot as it is. The answer is the
number of scans reported. -/
def scanPass (now : Float) (s : Session) : Nat × Session :=
  let (s, emitted) := s.syns.keys.foldl (scanOne s.horizon? now) (s, 0)
  (emitted, s)

/-- The snapshot that a pass has to wait for: one as new as the newest pending SYN. -/
def scanWait? (s : Session) : Option Kernel.Wait := do
  let newest ← s.syns.newest?
  s.waitFor? newest

/-- A pass with the wait before it: `meanwhile` is what happens to the session while the pass waits.
During a fast shutdown there is no wait and, where one were due, no pass. -/
def scan (meanwhile : Session → Session) (now : Float) (s : Session) : Nat × Session :=
  match s.scanWait? with
  | none => s.scanPass now
  | some wait =>
    if s.shutdown.fast then (0, s)
    else
      let s := meanwhile s
      if s.isReady wait then s.scanPass now else (0, s)

end FlowVerdict.Session
