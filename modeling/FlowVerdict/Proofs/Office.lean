import FlowVerdict.Failure
import FlowVerdict.Proofs.Operations
import FlowVerdict.Proofs.Passes

/-!
# Histories of a session

A session under any sequence of operations: lines of both streams, passes, cycles of the sampler and
shutdown requests, in any order and at any times. A pass that has to wait for a snapshot touches
nothing before its wait is over, so its place in the sequence is where the pass itself runs; a
connection that waits is held beside the session.
-/

namespace FlowVerdict

inductive Record where
  | syn (syn : Syn)
  | connection (con : Connection)

namespace Record

def flowId : Record → FlowId
  | .syn s => s.flowId
  | .connection con => con.flowId

def syn? : Record → Option Syn
  | .syn s => some s
  | .connection _ => none

def connection? : Record → Option Connection
  | .syn _ => none
  | .connection con => some con

end Record

/-- The books with a record filed; one of its flow that was pending there is replaced. -/
def Books.file (b : Books) : Record → Books
  | .syn syn => { b with syns := b.syns.insert syn.flowId syn }
  | .connection con => { b with connections := b.connections.insert con.flowId con }

def Books.displaced? (b : Books) : Record → Option Record
  | .syn syn => (b.syns.get? syn.flowId).map .syn
  | .connection con => (b.connections.get? con.flowId).map .connection

theorem Books.Filed.file {b : Books} (h : b.Filed) (r : Record) : (b.file r).Filed := by
  cases r with
  | syn syn =>
      refine ⟨fun id other hget => ?_, h.connections⟩
      rw [Books.file, Table.get?_insert] at hget
      split at hget
      · next heq => rw [← Option.some.inj hget, heq]
      · exact h.syns id other hget
  | connection con =>
      refine ⟨h.syns, fun id other hget => ?_⟩
      rw [Books.file, Table.get?_insert] at hget
      split at hget
      · next heq => rw [← Option.some.inj hget, heq]
      · exact h.connections id other hget

inductive Action where
  | header (line : Json.Bytes)
  | connection (line : Json.Bytes)
  /-- A connection that waits looks at the snapshot again. -/
  | resume (place : Nat)
  | matchPass (now : Float)
  | scanPass (now : Float)
  | cycle (answer : Except Failure String) (stamp : Float)
  | requestShutdown (reason : String)
  | forceShutdown (reason : String) (fatal : Bool)
  | signal

/-- A session, and the connections that wait for a snapshot before they are filed. -/
structure Office where
  session : Session
  held : List Held := []

namespace Office

def start (settings : Settings) (output : Nat → Delivery) : Office where
  session := { Session.ofSettings settings with output }

def act (o : Office) : Action → Office
  | .header line => { o with session := o.session.ingestSyn line }
  | .connection line =>
      let (held?, session) := o.session.ingestConnection line
      { session, held := o.held ++ held?.toList }
  | .resume place =>
      match o.held[place]? with
      | none => o
      | some held =>
          match o.session.settle held with
          | (none, session) => { session, held := o.held.eraseIdx place }
          | (some _, session) => { o with session }
  | .matchPass now => { o with session := (o.session.matchPass now).2 }
  | .scanPass now => { o with session := (o.session.scanPass now).2 }
  | .cycle (.ok listing) stamp => { o with session := (o.session.cycle listing stamp).2 }
  | .cycle (.error _) _ => o
  | .requestShutdown reason => { o with session := (o.session.requestShutdown reason).2 }
  | .forceShutdown reason fatal => { o with session := o.session.forceShutdown reason fatal }
  | .signal => { o with session := o.session.signal.2 }

def run (o : Office) (actions : List Action) : Office :=
  actions.foldl act o

def books (o : Office) : Books :=
  o.session.books

/-- The record that an operation files, as it is filed: a SYN unless a shutdown is on, a connection
as the snapshot corrects it, once it need not wait. -/
def arrival? (o : Office) : Action → Option Record
  | .header line =>
      if o.session.shutdown.graceful then none else (Syn.parse line).toOption.map .syn
  | .connection line =>
      (Connection.parse line).toOption.bind fun con =>
        if (o.session.waitFor? con.unixtime).isSome then none
        else some (.connection (o.session.reconciled con))
  | .resume place =>
      o.held[place]?.bind fun held =>
        if o.session.isReady held.wait then
          some (.connection (o.session.reconciled held.connection))
        else none
  | _ => none

/-- An operation gives a connection up: its wait is not over, and a fast shutdown cuts it short. -/
def drops (o : Office) : Action → Bool
  | .connection line =>
      (Connection.parse line).toOption.any fun con =>
        (o.session.waitFor? con.unixtime).isSome && o.session.shutdown.fast
  | .resume place =>
      o.held[place]?.any fun held => !o.session.isReady held.wait && o.session.shutdown.fast
  | _ => false

/-- What an operation does: the record that it files, whether it gives a connection up, and the
office after it. -/
inductive Turn (o : Office) : Action → Option Record → Bool → Office → Prop where
  /-- Nothing but the log changes, if even that. -/
  | noted {a : Action} {entries : List LogEntry}
      (hentries : ∀ entry ∈ entries, entry.isRoutine = true) :
      Turn o a none false { o with session := o.session.logAll entries }
  | synFiled {line : Json.Bytes} {syn : Syn} (hopen : o.session.shutdown.graceful = false)
      (hparse : Syn.parse line = .ok syn) :
      Turn o (.header line) (some (.syn syn)) false { o with session := o.session.fileSyn syn }
  | filed {line : Json.Bytes} {con : Connection} (hparse : Connection.parse line = .ok con)
      (hwait : o.session.waitFor? con.unixtime = none) :
      Turn o (.connection line) (some (.connection (o.session.reconciled con))) false
        { o with session := o.session.countConnection.fileConnection con }
  | held {line : Json.Bytes} {con : Connection} {wait : Kernel.Wait}
      (hparse : Connection.parse line = .ok con)
      (hwait : o.session.waitFor? con.unixtime = some wait)
      (hfast : o.session.shutdown.fast = false) :
      Turn o (.connection line) none false
        { session := o.session.countConnection, held := o.held ++ [⟨wait, con⟩] }
  | refused {line : Json.Bytes} {con : Connection} (hparse : Connection.parse line = .ok con)
      (hfast : o.session.shutdown.fast = true) :
      Turn o (.connection line) none true { o with session := o.session.countConnection }
  | settled {place : Nat} {held : Held} (hheld : o.held[place]? = some held)
      (hready : o.session.isReady held.wait = true) :
      Turn o (.resume place) (some (.connection (o.session.reconciled held.connection))) false
        { session := o.session.fileConnection held.connection, held := o.held.eraseIdx place }
  | abandoned {place : Nat} {held : Held} (hheld : o.held[place]? = some held)
      (hfast : o.session.shutdown.fast = true) :
      Turn o (.resume place) none true { o with held := o.held.eraseIdx place }
  | matchPass (now : Float) :
      Turn o (.matchPass now) none false { o with session := (o.session.matchPass now).2 }
  | scanPass (now : Float) :
      Turn o (.scanPass now) none false { o with session := (o.session.scanPass now).2 }
  | sampled {listing : String} {stamp : Float} {entries : List LogEntry}
      (hentries : ∀ entry ∈ entries, entry.isRoutine = true) :
      Turn o (.cycle (.ok listing) stamp) none false { o with
        session := (o.session.withSnapshot
          (o.session.snapshot.map fun snapshot => (snapshot.cycle listing stamp).1)).logAll
            entries }
  | closing {a : Action} {shutdown : Shutdown} {entries : List LogEntry}
      (hgraceful : shutdown.graceful = true)
      (hentries : ∀ entry ∈ entries, entry.isRoutine = true) :
      Turn o a none false
        { o with session := (o.session.withShutdown shutdown).logAll entries }

theorem Turn.unchanged (o : Office) (a : Action) : o.Turn a none false o := by
  have hnoted : o.Turn a none false { o with session := o.session.logAll [] } :=
    .noted (List.forall_mem_nil _)
  rwa [Session.logAll_nil] at hnoted

theorem Turn.logged {entry : LogEntry} (h : entry.isRoutine = true) (o : Office) (a : Action) :
    o.Turn a none false { o with session := o.session.log entry } :=
  @Turn.noted o a [entry] (by simpa using h)

theorem turn_header (o : Office) (line : Json.Bytes) :
    o.Turn (.header line) (o.arrival? (.header line)) (o.drops (.header line))
      (o.act (.header line)) := by
  cases hgraceful : o.session.shutdown.graceful with
  | true =>
      simp only [arrival?, drops, act, Session.ingestSyn, hgraceful, if_true]
      exact .unchanged o _
  | false =>
      cases hparse : Syn.parse line with
      | error fault =>
          simp only [arrival?, drops, act, Session.ingestSyn, hgraceful, hparse]
          exact .logged rfl o _
      | ok syn =>
          simp only [arrival?, drops, act, Session.ingestSyn, hgraceful, hparse]
          exact .synFiled hgraceful hparse

theorem turn_connection (o : Office) (line : Json.Bytes) :
    o.Turn (.connection line) (o.arrival? (.connection line)) (o.drops (.connection line))
      (o.act (.connection line)) := by
  cases hparse : Connection.parse line with
  | error fault =>
      simp only [arrival?, drops, act, Session.ingestConnection, hparse, Option.toList,
        List.append_nil]
      exact .logged rfl o _
  | ok con =>
      have hingest := Session.ingestConnection_of_parse hparse o.session
      cases hwait : o.session.waitFor? con.unixtime with
      | none =>
          rw [hwait] at hingest
          simpa [arrival?, drops, act, hingest, hparse, hwait, Except.toOption] using
            Turn.filed hparse hwait
      | some wait =>
          have hready : o.session.countConnection.isReady wait = false :=
            Session.isReady_of_waitFor? hwait
          have hsettle : o.session.countConnection.settle ⟨wait, con⟩ =
              (if o.session.shutdown.fast then none else some ⟨wait, con⟩,
                o.session.countConnection) :=
            Session.settle_of_not_isReady hready
          simp only [hwait, hsettle] at hingest
          cases hfast : o.session.shutdown.fast with
          | true =>
              simpa [arrival?, drops, act, hingest, hparse, hwait, hfast, Except.toOption] using
                Turn.refused hparse hfast
          | false =>
              simpa [arrival?, drops, act, hingest, hparse, hwait, hfast, Except.toOption] using
                Turn.held hparse hwait hfast

theorem turn_resume (o : Office) (place : Nat) :
    o.Turn (.resume place) (o.arrival? (.resume place)) (o.drops (.resume place))
      (o.act (.resume place)) := by
  cases hheld : o.held[place]? with
  | none =>
      simp only [arrival?, drops, act, hheld]
      exact .unchanged o _
  | some held =>
      cases hready : o.session.isReady held.wait with
      | true =>
          simpa [arrival?, drops, act, hheld, hready, Session.settle_of_isReady hready] using
            Turn.settled hheld hready
      | false =>
          cases hfast : o.session.shutdown.fast with
          | true =>
              simpa [arrival?, drops, act, hheld, hready, hfast,
                Session.settle_of_not_isReady hready] using Turn.abandoned hheld hfast
          | false =>
              simpa [arrival?, drops, act, hheld, hready, hfast,
                Session.settle_of_not_isReady hready] using Turn.unchanged o (.resume place)

/-- Every operation takes one of these turns. -/
theorem turn (o : Office) (a : Action) : o.Turn a (o.arrival? a) (o.drops a) (o.act a) := by
  cases a with
  | header line => exact o.turn_header line
  | connection line => exact o.turn_connection line
  | resume place => exact o.turn_resume place
  | matchPass now => exact .matchPass now
  | scanPass now => exact .scanPass now
  | cycle answer stamp =>
      cases answer with
      | error failure => exact .unchanged o _
      | ok listing =>
          simp only [act, Session.cycle_eq]
          exact .sampled (o.session.isRoutine_of_rowEntries listing stamp)
  | requestShutdown reason =>
      simp only [act, Session.requestShutdown_eq]
      exact .closing rfl (o.session.isRoutine_of_requestEntries reason)
  | forceShutdown reason fatal => exact .closing rfl (by simp [LogEntry.isRoutine])
  | signal =>
      simp only [act, Session.signal_eq]
      exact .closing o.session.shutdown.graceful_request o.session.isRoutine_of_signalEntries

end Office

namespace Session

theorem books_fileSyn (syn : Syn) (s : Session) :
    (s.fileSyn syn).books = s.books.file (.syn syn) := by
  rw [fileSyn_eq]
  rfl

theorem books_fileConnection (con : Connection) (s : Session) :
    (s.fileConnection con).books = s.books.file (.connection (s.reconciled con)) := by
  rw [fileConnection_eq]
  rfl

theorem books_cycle (listing : String) (stamp : Float) (s : Session) :
    (s.cycle listing stamp).2.books = s.books := by
  rw [cycle_eq]
  rfl

end Session

namespace Office

variable {o o' : Office} {a : Action} {r : Record}

/-- A SYN is filed as the header stream holds it. -/
theorem of_arrival?_eq_syn {syn : Syn} (h : o.arrival? a = some (.syn syn)) :
    ∃ line, a = .header line ∧ Syn.parse line = .ok syn := by
  have hturn := o.turn a
  generalize o.act a = o', o.drops a = dropped at hturn
  rw [h] at hturn
  cases hturn with
  | synFiled hopen hparse => exact ⟨_, rfl, hparse⟩

/-- A connection is filed as the snapshot corrects it, be it as the connection stream holds it or
after it has waited. -/
theorem of_arrival?_eq_connection {con : Connection} (h : o.arrival? a = some (.connection con)) :
    ∃ parsed, con = o.session.reconciled parsed ∧
      ((∃ line, a = .connection line ∧ Connection.parse line = .ok parsed) ∨
        ∃ held ∈ o.held, held.connection = parsed) := by
  have hturn := o.turn a
  generalize o.act a = o', o.drops a = dropped at hturn
  rw [h] at hturn
  cases hturn with
  | filed hparse => exact ⟨_, rfl, .inl ⟨_, rfl, hparse⟩⟩
  | settled hheld => exact ⟨_, rfl, .inr ⟨_, List.mem_of_getElem? hheld, rfl⟩⟩

theorem books_act_of_arrival (h : o.arrival? a = some r) :
    (o.act a).books = o.books.file r := by
  have hturn := o.turn a
  generalize o.act a = o', o.drops a = dropped at hturn ⊢
  rw [h] at hturn
  cases hturn with
  | synFiled => exact Session.books_fileSyn _ _
  | filed => exact Session.books_fileConnection _ _
  | settled => exact Session.books_fileConnection _ _

/-- An operation that files nothing and is no pass leaves the books as they are. -/
theorem books_act_of_no_pass (h : o.arrival? a = none) (hmatch : ∀ now, a ≠ .matchPass now)
    (hscan : ∀ now, a ≠ .scanPass now) : (o.act a).books = o.books := by
  have hturn := o.turn a
  generalize o.act a = o', o.drops a = dropped at hturn ⊢
  rw [h] at hturn
  cases hturn with
  | matchPass now => exact absurd rfl (hmatch now)
  | scanPass now => exact absurd rfl (hscan now)
  | _ => rfl

/-- An operation that files nothing drains the books, or leaves them as they are. -/
theorem drains_act_of_no_arrival (h : o.arrival? a = none) (hf : o.books.Filed) :
    ∃ cs, o.books.Drains cs (o.act a).books := by
  by_cases hmatch : ∃ now, a = .matchPass now
  · obtain ⟨now, rfl⟩ := hmatch
    obtain ⟨cs, hcs, _⟩ := (Session.matchPass_drained now o.session hf).changes
    exact ⟨cs, hcs⟩
  by_cases hscan : ∃ now, a = .scanPass now
  · obtain ⟨now, rfl⟩ := hscan
    obtain ⟨cs, hcs, _⟩ := (Session.scanPass_drained now o.session hf).changes
    exact ⟨cs, hcs⟩
  rw [books_act_of_no_pass h (not_exists.mp hmatch) (not_exists.mp hscan)]
  exact ⟨[], .done _⟩

/-- A connection that is pending after an operation was pending before it, unless the operation
files it. -/
theorem connection_before_act {id : FlowId} {con : Connection} (hf : o.books.Filed)
    (hget : (o.act a).books.connections.get? id = some con) :
    o.arrival? a = some (.connection con) ∨ o.books.connections.get? id = some con := by
  cases harrival : o.arrival? a with
  | some r =>
      rw [books_act_of_arrival harrival] at hget
      cases r with
      | syn _ => exact .inr hget
      | connection filed =>
          rw [Books.file, Table.get?_insert] at hget
          split at hget
          · exact .inl (congrArg (some ∘ Record.connection) (Option.some.inj hget))
          · exact .inr hget
  | none =>
      obtain ⟨cs, hcs⟩ := drains_act_of_no_arrival harrival hf
      exact .inr (hcs.connection_before hget)

/-- A connection that waits after an operation waited before it, unless the operation reads it. -/
theorem held_before_act {held : Held} (hmem : held ∈ (o.act a).held) :
    held ∈ o.held ∨
      ∃ line, a = .connection line ∧ Connection.parse line = .ok held.connection := by
  have hturn := o.turn a
  generalize o.act a = o', o.arrival? a = r, o.drops a = dropped at hturn hmem
  cases hturn with
  | @held line con wait hparse =>
      refine (List.mem_append.mp hmem).imp_right fun hnew => ⟨line, rfl, ?_⟩
      rwa [List.mem_singleton.mp hnew]
  | settled | abandoned => exact .inl (List.mem_of_mem_eraseIdx hmem)
  | _ => exact .inl hmem

theorem filed_act (hf : o.books.Filed) (a : Action) : (o.act a).books.Filed := by
  cases h : o.arrival? a with
  | some r =>
      rw [books_act_of_arrival h]
      exact hf.file r
  | none =>
      obtain ⟨cs, hcs⟩ := drains_act_of_no_arrival h hf
      exact hf.drains hcs

theorem filed_run (hf : o.books.Filed) (actions : List Action) : (o.run actions).books.Filed := by
  induction actions generalizing o with
  | nil => exact hf
  | cons head tail ih => exact ih (filed_act hf head)

/-- In every session each record is filed under its own flow. -/
theorem filed_start (settings : Settings) (output : Nat → Delivery) :
    (start settings output).books.Filed := by
  constructor
  · intro id syn h
    cases h
  · intro id con h
    cases h

theorem run_append (o : Office) (first second : List Action) :
    o.run (first ++ second) = (o.run first).run second :=
  List.foldl_append

end Office

end FlowVerdict
