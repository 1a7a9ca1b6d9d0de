import FlowVerdict.Proofs.Running
import FlowVerdict.Proofs.WindingDown

/-!
# Laws of runs

What holds after every history of operations holds at every moment of a run of the program, whatever
comes from its pipes, its clocks and its tools, and whenever signals come.
-/

namespace FlowVerdict.Run

variable {settings : Settings} {unix : Float} {headers connections : Pipe}

def program (settings : Settings) (unix : Float) (headers connections : Pipe) (moves : List Move) :
    Run :=
  moves.foldl move
    (start (Session.ofSettings settings).announce.cleared unix headers connections)

/-- A run of the program follows a history of a session whose output takes everything. -/
theorem program_mirrors (settings : Settings) (unix : Float) (headers connections : Pipe)
    (moves : List Move) : ∃ actions, (program settings unix headers connections moves).Mirrors
      ((Office.start settings fun _ => .written).run actions) :=
  (mirrors_start settings unix headers connections).run moves

/-- At every moment each record is pending under its own flow, and the index of the SYNs is in
step. -/
theorem program_orderly (settings : Settings) (unix : Float) (headers connections : Pipe)
    (moves : List Move) : (program settings unix headers connections moves).session.Orderly := by
  obtain ⟨actions, hmirrors⟩ := program_mirrors settings unix headers connections moves
  obtain ⟨said, told, hsession⟩ := hmirrors.session
  have horderly := Office.orderly_run (Office.orderly_start settings fun _ => .written) actions
  rw [hsession] at horderly
  exact ⟨⟨horderly.filed.syns, horderly.filed.connections⟩, horderly.indexed⟩

/-- At every moment each record that was counted on its way in is pending, was replaced, or is
counted with the events that report it; some connections are held back by an intake or were given
up. -/
theorem program_balanced (settings : Settings) (unix : Float) (headers connections : Pipe)
    (moves : List Move) :
    let r := program settings unix headers connections moves
    let t := r.session.tally
    t.headers = r.session.syns.size + t.headerDups + t.accepted + t.synScans ∧
      (∃ given, t.connections = r.session.connections.size + t.connectionDups + t.accepted +
        t.noSyns + (given + r.held.length)) ∧
      t.guesses ≤ t.accepted := by
  intro r t
  obtain ⟨actions, hmirrors⟩ := program_mirrors settings unix headers connections moves
  obtain ⟨said, told, hsession⟩ := hmirrors.session
  have hbalanced := (Office.balanced_start settings fun _ => .written).run actions
  rw [Office.Balanced, hsession, hmirrors.held.length_eq] at hbalanced
  exact ⟨hbalanced.headers, ⟨_, hbalanced.connections⟩, hbalanced.guesses⟩

/-- From the moment at which a shutdown is on it stays on, no SYN comes in, and the counters of the
header stream stand still. -/
theorem program_drains {before : List Move}
    (hclosing :
      (program settings unix headers connections before).session.shutdown.graceful = true)
    (more : List Move) :
    let r := program settings unix headers connections before
    let r' := program settings unix headers connections (before ++ more)
    r'.session.shutdown.graceful = true ∧
      (∀ id syn', r'.session.syns.get? id = some syn' →
        ∃ syn, r.session.syns.get? id = some syn ∧ syn'.unmarked = syn.unmarked) ∧
      r'.session.tally.headers = r.session.tally.headers ∧
      r'.session.tally.headerDups = r.session.tally.headerDups := by
  intro r r'
  obtain ⟨actions, hmirrors⟩ := program_mirrors settings unix headers connections before
  obtain ⟨said, told, hsession⟩ := hmirrors.session
  obtain ⟨later, hlater⟩ := hmirrors.run more
  rw [← show r' = more.foldl move r from List.foldl_append] at hlater
  obtain ⟨said', told', hsession'⟩ := hlater.session
  have horderly := Office.orderly_run (Office.orderly_start settings fun _ => .written) actions
  have hbegun : ((Office.start settings fun _ => .written).run
      actions).session.shutdown.graceful = true := by
    rw [hsession]
    exact hclosing
  obtain ⟨hclosed, hsyns, hheaders, hdups, _⟩ :=
    (Office.DrainedSince.refl hbegun).run horderly later
  rw [hsession'] at hclosed hsyns hheaders hdups
  rw [hsession] at hsyns hheaders hdups
  exact ⟨hclosed, hsyns, hheaders, hdups⟩

end FlowVerdict.Run
