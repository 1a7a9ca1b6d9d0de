import FlowVerdict.Proofs.Frame

/-!
# Workers side by side

The sampler, the intake of connections and the scan detector work on one session at once. Here they
do so in steps, each of them one look at what they share or one change of it, and the steps of the
three come in any order. A worker that nobody interrupts does what its operation on the session
says.
-/

namespace FlowVerdict

/-- Whether a listing may be asked for at a time once a publication is out: the clock does not run
backwards. -/
def Kernel.Publication.allows (p : Publication) (stamp : Float) : Bool :=
  if p.sequence = 0 then decide (stamp ≤ stamp) else decide (p.stamp ≤ stamp)

namespace Session

/-- What is published, if the kernel's connection table is sampled. -/
def published (s : Session) : Kernel.Publication :=
  (s.snapshot.map (·.published)).getD {}

def beginWait (unixtime : Float) (s : Session) : Kernel.Wait :=
  { unixtime, since := s.published.sequence }

/-- Files a connection that is corrected already. -/
def fileCorrected (con : Connection) (s : Session) : Session :=
  let id := con.flowId
  let filed := { s with connections := s.connections.insert id con }
  if s.connections.contains id then
    { filed with tally := { s.tally with connectionDups := s.tally.connectionDups + 1 } }.log
      (.duplicateFlow connectionSource id.text)
  else filed

/-- A record waits if its wait, as it begins, is not over. -/
theorem waitFor?_eq (unixtime : Float) (s : Session) :
    s.waitFor? unixtime =
      if s.isReady (s.beginWait unixtime) then none else some (s.beginWait unixtime) := by
  cases hsnapshot : s.snapshot with
  | none => simp [waitFor?, isReady, hsnapshot]
  | some snapshot => simp [waitFor?, isReady, beginWait, published, hsnapshot]

theorem fileConnection_eq_fileCorrected (con : Connection) (s : Session) :
    s.fileConnection con = s.fileCorrected (s.reconciled con) :=
  rfl

end Session

/-- How far the intake of connections has got with a record. -/
inductive Clerk where
  | idle
  | noted (con : Connection)
  | waiting (held : Held)
  /-- The wait is over. -/
  | cleared (held : Held)
  /-- The record is corrected by the snapshot, and not filed yet. -/
  | corrected (con : Connection)

namespace Clerk

def read (line : Json.Bytes) (s : Session) : Clerk × Session :=
  match Connection.parse line with
  | .error fault => (idle, s.logMalformed connectionSource fault line)
  | .ok con =>
    (noted con, { s with tally := { s.tally with connections := s.tally.connections + 1 } })

/-- The next step of the intake. During a fast shutdown a record whose wait is not over is
dropped. -/
def step (s : Session) : Clerk → Clerk × Session
  | idle => (idle, s)
  | noted con => (waiting { wait := s.beginWait con.unixtime, connection := con }, s)
  | waiting held =>
    if s.isReady held.wait then (cleared held, s)
    else if s.shutdown.fast then (idle, s)
    else (waiting held, s)
  | cleared held => (corrected (s.reconciled held.connection), s)
  | corrected con => (idle, s.fileCorrected con)

end Clerk

/-- How far the scan detector has got with a pass. -/
inductive Patrol where
  | idle
  /-- The time of the newest pending SYN is known. -/
  | noted (now newest : Float)
  | waiting (now : Float) (wait : Kernel.Wait)
  /-- There is nothing to wait for. -/
  | cleared (now : Float)
  /-- The stamp to rely on is known. -/
  | relying (now : Float) (horizon : Option Float)
  /-- So many SYNs have been reported; the SYNs of these flows are still to be examined. -/
  | walking (now : Float) (horizon : Option Float) (emitted : Nat) (ids : List FlowId)

namespace Patrol

def depart (now : Float) (s : Session) : Patrol :=
  match s.syns.newest? with
  | none => cleared now
  | some newest => noted now newest

/-- The next step of the scan detector. During a fast shutdown a pass whose wait is not over is
given up. -/
def step (s : Session) : Patrol → Patrol × Session
  | idle => (idle, s)
  | noted now newest => (waiting now (s.beginWait newest), s)
  | waiting now wait =>
    if s.isReady wait then (cleared now, s)
    else if s.shutdown.fast then (idle, s)
    else (waiting now wait, s)
  | cleared now => (relying now s.horizon?, s)
  | relying now horizon => (walking now horizon 0 s.syns.keys, s)
  | walking _ _ _ [] => (idle, s)
  | walking now horizon emitted (id :: ids) =>
    let (s, emitted) := Session.scanOne horizon now (s, emitted) id
    (walking now horizon emitted ids, s)

end Patrol

/-- A session with its workers in the middle of what they do. -/
structure Workshop where
  session : Session
  /-- The time at which a listing was asked for that is still to come. -/
  asked : Option Float := none
  clerk : Clerk := .idle
  patrol : Patrol := .idle

/-- Whether an operation is one that no step above is a part of. -/
def Action.isAside : Action → Bool
  | .header _ | .matchPass _ | .requestShutdown _ | .forceShutdown _ _ | .signal => true
  | .connection _ | .resume _ | .scanPass _ | .cycle _ _ => false

inductive Move where
  /-- The sampler notes the time and asks for a listing. -/
  | ask (stamp : Float)
  /-- The answer comes; a listing is taken up and published in one step. -/
  | publish (answer : Except Failure String)
  /-- The intake, with nothing in hand, takes up a line. -/
  | read (line : Json.Bytes)
  | clerk
  /-- The scan detector, with no pass under way, begins one. -/
  | depart (now : Float)
  | patrol
  /-- One of the other operations. -/
  | aside (a : Action)

namespace Workshop

def opening (settings : Settings) (output : Nat → Delivery) : Workshop where
  session := { Session.ofSettings settings with output }

def act (w : Workshop) : Move → Option Workshop
  | .ask stamp =>
    if w.session.snapshot.isSome && w.asked.isNone && w.session.published.allows stamp then
      some { w with asked := some stamp }
    else none
  | .publish answer =>
    w.asked.map fun stamp =>
      match answer with
      | .ok listing => { w with asked := none, session := (w.session.cycle listing stamp).2 }
      | .error _ => { w with asked := none }
  | .read line =>
    match w.clerk with
    | .idle =>
      let (clerk, session) := Clerk.read line w.session
      some { w with clerk, session }
    | _ => none
  | .clerk =>
    let (clerk, session) := w.clerk.step w.session
    some { w with clerk, session }
  | .depart now =>
    match w.patrol with
    | .idle => some { w with patrol := Patrol.depart now w.session }
    | _ => none
  | .patrol =>
    let (patrol, session) := w.patrol.step w.session
    some { w with patrol, session }
  | .aside a =>
    if a.isAside then some { w with session := (({ session := w.session } : Office).act a).session }
    else none

def run (w : Workshop) : List Move → Option Workshop
  | [] => some w
  | m :: rest => (w.act m).bind fun w' => w'.run rest

theorem run_append (w : Workshop) (first second : List Move) :
    w.run (first ++ second) = (w.run first).bind fun w' => w'.run second := by
  induction first generalizing w with
  | nil => rfl
  | cons m rest ih =>
      simp only [List.cons_append, run]
      cases w.act m with
      | none => rfl
      | some w' => exact ih w'

/-- The moves that can happen and what they make of a workshop. -/
inductive Step (w : Workshop) : Move → Workshop → Prop where
  | ask (stamp : Float) (hsampled : w.session.snapshot.isSome = true)
      (hidle : w.asked.isNone = true) (hallows : w.session.published.allows stamp = true) :
      Step w (.ask stamp) { w with asked := some stamp }
  | listed (listing : String) (stamp : Float) (hasked : w.asked = some stamp) :
      Step w (.publish (.ok listing))
        { w with asked := none, session := (w.session.cycle listing stamp).2 }
  | failed (failure : Failure) (stamp : Float) (hasked : w.asked = some stamp) :
      Step w (.publish (.error failure)) { w with asked := none }
  | read (line : Json.Bytes) (hidle : w.clerk = .idle) :
      Step w (.read line) { w with
        clerk := (Clerk.read line w.session).1
        session := (Clerk.read line w.session).2 }
  | clerk : Step w .clerk { w with
      clerk := (w.clerk.step w.session).1
      session := (w.clerk.step w.session).2 }
  | depart (now : Float) (hidle : w.patrol = .idle) :
      Step w (.depart now) { w with patrol := Patrol.depart now w.session }
  | patrol : Step w .patrol { w with
      patrol := (w.patrol.step w.session).1
      session := (w.patrol.step w.session).2 }
  | aside (a : Action) (haside : a.isAside = true) :
      Step w (.aside a) { w with session := (({ session := w.session } : Office).act a).session }

variable {w w' : Workshop} {m : Move}

theorem act_eq_some_iff : w.act m = some w' ↔ w.Step m w' := by
  constructor
  · intro h
    cases m with
    | ask stamp =>
        simp only [act] at h
        split at h <;> cases h
        next hguard =>
          simp only [Bool.and_eq_true] at hguard
          exact .ask stamp hguard.1.1 hguard.1.2 hguard.2
    | publish answer =>
        obtain ⟨stamp, hasked, rfl⟩ := Option.map_eq_some_iff.mp h
        cases answer with
        | ok listing => exact .listed listing stamp hasked
        | error failure => exact .failed failure stamp hasked
    | read line =>
        simp only [act] at h
        split at h <;> cases h
        next hidle => exact .read line hidle
    | clerk =>
        cases h
        exact .clerk
    | depart now =>
        simp only [act] at h
        split at h <;> cases h
        next hidle => exact .depart now hidle
    | patrol =>
        cases h
        exact .patrol
    | aside a =>
        simp only [act] at h
        split at h <;> cases h
        next haside => exact .aside a haside
  · intro h
    cases h with
    | ask stamp hsampled hidle hallows => simp [act, hsampled, hidle, hallows]
    | listed listing stamp hasked => simp [act, hasked]
    | failed failure stamp hasked => simp [act, hasked]
    | read line hidle => simp [act, hidle]
    | clerk => rfl
    | depart now hidle => simp [act, hidle]
    | patrol => rfl
    | aside a haside => simp [act, haside]

theorem act_read (hidle : w.clerk = .idle) (line : Json.Bytes) :
    w.act (.read line) = some { w with
      clerk := (Clerk.read line w.session).1
      session := (Clerk.read line w.session).2 } :=
  act_eq_some_iff.mpr (.read line hidle)

theorem act_clerk (w : Workshop) :
    w.act .clerk =
      some { w with clerk := (w.clerk.step w.session).1, session := (w.clerk.step w.session).2 } :=
  rfl

theorem run_noted {con : Connection} (hnoted : w.clerk = .noted con) :
    let r := match w.session.waitFor? con.unixtime with
      | none => (none, w.session.fileConnection con)
      | some wait => w.session.settle { wait, connection := con }
    w.run [.clerk, .clerk, .clerk, .clerk] =
      some { w with session := r.2, clerk := (r.1.map Clerk.waiting).getD .idle } := by
  rw [Session.waitFor?_eq]
  cases hready : w.session.isReady (w.session.beginWait con.unixtime) with
  | true =>
      simp [run, act_clerk, hnoted, Clerk.step, hready, Session.fileConnection_eq_fileCorrected]
  | false =>
      cases hfast : w.session.shutdown.fast with
      | true => simp [run, act_clerk, hnoted, Clerk.step, Session.settle, hready, hfast]
      | false => simp [run, act_clerk, hnoted, Clerk.step, Session.settle, hready, hfast]

/-- Steps of the intake in a row take a line in as the operation on the session does. -/
theorem run_clerk (hidle : w.clerk = .idle) (line : Json.Bytes) :
    w.run [.read line, .clerk, .clerk, .clerk, .clerk] =
      some { w with
        session := (w.session.ingestConnection line).2
        clerk := ((w.session.ingestConnection line).1.map Clerk.waiting).getD .idle } := by
  rw [run, act_read hidle, Option.bind_some]
  cases hparse : Connection.parse line with
  | error fault =>
      simp only [Clerk.read, hparse, Session.ingestConnection, run, act_clerk, Clerk.step,
        Option.bind_some]
      rfl
  | ok con =>
      have hread : (Clerk.read line w.session).1 = .noted con := by
        simp only [Clerk.read, hparse]
      rw [run_noted hread, Session.ingestConnection_of_parse hparse]
      simp only [Clerk.read, hparse]
      rfl

/-- Steps of a pass in a row walk over the flows that are left. -/
theorem run_walk {now : Float} {horizon : Option Float} {emitted : Nat} (ids : List FlowId)
    (hwalking : w.patrol = .walking now horizon emitted ids) :
    w.run (List.replicate (ids.length + 1) .patrol) =
      some { w with
        session := (ids.foldl (Session.scanOne horizon now) (w.session, emitted)).1
        patrol := .idle } := by
  induction ids generalizing w emitted with
  | nil => simp [run, act, hwalking, Patrol.step]
  | cons id rest ih =>
      rw [List.length_cons, List.replicate_succ, run]
      have hstep : w.act .patrol = some { w with
          session := (Session.scanOne horizon now (w.session, emitted) id).1
          patrol := .walking now horizon (Session.scanOne horizon now (w.session, emitted) id).2
            rest } := by
        simp only [act, hwalking, Patrol.step]
      rw [hstep, Option.bind_some, ih rfl]
      rfl

theorem act_patrol (w : Workshop) :
    w.act .patrol =
      some { w with
        patrol := (w.patrol.step w.session).1
        session := (w.patrol.step w.session).2 } :=
  rfl

theorem act_depart (hidle : w.patrol = .idle) (now : Float) :
    w.act (.depart now) = some { w with patrol := Patrol.depart now w.session } :=
  act_eq_some_iff.mpr (.depart now hidle)

/-- A pass that has nothing to wait for, step by step, does what the pass on the session does. -/
theorem run_cleared {now : Float} (hcleared : w.patrol = .cleared now) :
    w.run (List.replicate (w.session.syns.keys.length + 3) .patrol) =
      some { w with session := (w.session.scanPass now).2, patrol := .idle } := by
  rw [List.replicate_succ, List.replicate_succ, run, act_patrol, Option.bind_some, run, act_patrol,
    Option.bind_some, run_walk w.session.syns.keys (by simp only [hcleared, Patrol.step]; rfl)]
  simp only [hcleared, Patrol.step]
  rfl

/-- The same once the wait of a pass is over. -/
theorem run_waiting {now : Float} {wait : Kernel.Wait} (hwaiting : w.patrol = .waiting now wait)
    (hready : w.session.isReady wait = true) :
    w.run (List.replicate (w.session.syns.keys.length + 4) .patrol) =
      some { w with session := (w.session.scanPass now).2, patrol := .idle } := by
  have hstep : w.act .patrol = some { w with patrol := .cleared now } := by
    simp only [act_patrol, hwaiting, Patrol.step, hready, if_true]
  rw [List.replicate_succ, run, hstep, Option.bind_some]
  exact run_cleared rfl

/-- Steps of the scan detector in a row: the pass on the session if there is nothing to wait for,
and otherwise the wait before it. -/
theorem run_patrol (hidle : w.patrol = .idle) (now : Float) :
    match w.session.scanWait? with
    | none => ∃ n, w.run (.depart now :: List.replicate n .patrol) =
        some { w with session := (w.session.scanPass now).2, patrol := .idle }
    | some wait => w.run [.depart now, .patrol] = some { w with patrol := .waiting now wait } := by
  rw [Session.scanWait?]
  cases hnewest : w.session.syns.newest? with
  | none =>
      have hstart : w.act (.depart now) = some { w with patrol := .cleared now } := by
        rw [act_depart hidle, Patrol.depart, hnewest]
      refine ⟨w.session.syns.keys.length + 3, ?_⟩
      rw [run, hstart, Option.bind_some]
      exact run_cleared rfl
  | some newest =>
      have hstart : w.act (.depart now) = some { w with patrol := .noted now newest } := by
        rw [act_depart hidle, Patrol.depart, hnewest]
      have hbegin : Workshop.act { w with patrol := .noted now newest } .patrol =
          some { w with patrol := .waiting now (w.session.beginWait newest) } := rfl
      rw [Option.bind_eq_bind, Option.bind_some, Session.waitFor?_eq]
      cases hready : w.session.isReady (w.session.beginWait newest) with
      | true =>
          refine ⟨w.session.syns.keys.length + 5, ?_⟩
          rw [run, hstart, Option.bind_some, List.replicate_succ, run, hbegin, Option.bind_some]
          exact run_waiting rfl hready
      | false =>
          simp only [Bool.false_eq_true, if_false]
          rw [run, hstart, Option.bind_some, run, hbegin, Option.bind_some, run]

end Workshop

end FlowVerdict
