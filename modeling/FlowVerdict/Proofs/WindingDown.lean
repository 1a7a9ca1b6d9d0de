import FlowVerdict.Proofs.Accounts
import FlowVerdict.Proofs.Marks
import FlowVerdict.Proofs.MatchPass

/-!
# A shutdown only drains

Once a shutdown is on, no operation takes it back, no SYN comes in, and no connection is reported
without SYN. Connections still come in, and those that are pending leave with a SYN or are replaced.
-/

namespace FlowVerdict

namespace Session

variable {s s' : Session}

/-- While a shutdown is on, all that leaves by a matching pass leaves in pairs. -/
theorem joined_of_closing {now : Float} (h : s.Orderly) (hclosing : s.shutdown.graceful = true)
    {d : Departure} (hd : d ∈ s.decisions now) :
    ∃ con syn guessed, d = .joined con syn guessed := by
  rcases of_mem_decisions h hd with ⟨con, syn, heq, _⟩ | ⟨con, syn, heq, _⟩ | ⟨_, _, hopen⟩
  · exact ⟨con, syn, _, heq⟩
  · exact ⟨con, syn, _, heq⟩
  · rw [hclosing] at hopen
    cases hopen

theorem Settles.headers {out : Verdicts} (h : s.Settles out s') :
    s'.tally.headers = s.tally.headers ∧ s'.tally.headerDups = s.tally.headerDups := by
  rw [h.tally]
  exact ⟨rfl, rfl⟩

end Session

namespace Office

variable {o : Office} {a : Action} {e : Event}

theorem headers_act (hclosing : o.session.shutdown.graceful = true) (a : Action) :
    (o.act a).session.tally.headers = o.session.tally.headers ∧
      (o.act a).session.tally.headerDups = o.session.tally.headerDups := by
  have hturn := o.turn a
  generalize o.act a = o', o.arrival? a = r, o.drops a = dropped at hturn ⊢
  cases hturn with
  | synFiled hopen =>
      rw [hclosing] at hopen
      cases hopen
  | filed | settled =>
      rw [Session.fileConnection_eq]
      exact ⟨rfl, rfl⟩
  | matchPass now => exact (Session.matchPass_settles now o.session).headers
  | scanPass now => exact (Session.scanPass_settles now o.session).headers
  | _ => exact ⟨rfl, rfl⟩

/-- No SYN is filed while a shutdown is on. -/
theorem arrival?_ne_syn (hclosing : o.session.shutdown.graceful = true) (a : Action) (syn : Syn) :
    o.arrival? a ≠ some (.syn syn) := by
  intro harrival
  obtain ⟨line, rfl, _⟩ := of_arrival?_eq_syn harrival
  rw [arrival?, if_pos hclosing] at harrival
  cases harrival

/-- No connection is reported without SYN while a shutdown is on. -/
theorem Reports.ne_noSyn (hreports : o.Reports e a) (h : o.session.Orderly)
    (hclosing : o.session.shutdown.graceful = true) : e.verdict ≠ .noSyn := by
  rcases hreports.is_pass with ⟨now, rfl⟩ | ⟨now, rfl⟩
  · have hevents : (o.act (.matchPass now)).books.events = _ := Session.events_matchPass h now
    obtain ⟨d, hd, rfl⟩ := List.mem_map.mp ((reports_iff hevents).mp hreports)
    obtain ⟨con, syn, guessed, rfl⟩ := Session.joined_of_closing h hclosing hd
    exact Verdict.noConfusion
  · obtain ⟨_, syn, _, _, rfl⟩ := hreports.of_scanPass
    exact Verdict.noConfusion

theorem connection_matchPass (h : o.session.Orderly)
    (hclosing : o.session.shutdown.graceful = true) (now : Float) {id : FlowId} {con : Connection}
    (hcon : o.session.books.connections.get? id = some con) :
    (o.act (.matchPass now)).session.connections.get? id = some con ∨
      ∃ syn guessed, o.Reports (.accepted con syn guessed) (.matchPass now) := by
  have hdrains := Session.matchPass_drains h now
  have hbooks : (o.act (.matchPass now)).books = _ := Session.matchPass_departs h now
  have hget := congrArg (fun b : Books => b.connections.get? id) hbooks
  simp only [Books.get?_connections_after, hcon] at hget
  split at hget
  · next hany =>
      right
      obtain ⟨d, hd, htakes⟩ := List.any_eq_true.mp hany
      obtain ⟨other, syn, guessed, rfl⟩ := Session.joined_of_closing h hclosing hd
      have hflow : other.flowId = id := by simpa [Departure.connection?] using htakes
      have hpending := hdrains.connection_pending (Books.mem_departures_iff.mpr
        (List.mem_map_of_mem hd)) (by rfl)
      rw [hflow, hcon] at hpending
      cases hpending
      have hevents : (o.act (.matchPass now)).books.events = _ := Session.events_matchPass h now
      exact ⟨syn, guessed, (reports_iff hevents).mpr (List.mem_map.mpr ⟨_, hd, rfl⟩)⟩
  · exact .inl hget

/-- What becomes of a pending connection while a shutdown is on: it stays as it is, it leaves in an
accepted event, or another connection of its flow comes in its place. -/
theorem connection_act (h : o.session.Orderly) (hclosing : o.session.shutdown.graceful = true)
    (a : Action) {id : FlowId} {con : Connection}
    (hcon : o.session.connections.get? id = some con) :
    (o.act a).session.connections.get? id = some con ∨
      (∃ syn guessed, o.Reports (.accepted con syn guessed) a) ∨
      ∃ later, o.arrival? a = some (.connection later) ∧ later.flowId = id ∧
        (o.act a).session.connections.get? id = some later := by
  have hcon : o.books.connections.get? id = some con := hcon
  cases harrival : o.arrival? a with
  | some r =>
      have hbooks := books_act_of_arrival harrival
      cases r with
      | syn syn => exact absurd harrival (arrival?_ne_syn hclosing a syn)
      | connection later =>
          have hget := congrArg (fun b : Books => b.connections.get? id) hbooks
          simp only [Books.file, Table.get?_insert, hcon] at hget
          split at hget
          · next heq => exact .inr (.inr ⟨later, rfl, heq.symm, hget⟩)
          · exact .inl hget
  | none =>
      by_cases hmatch : ∃ now, a = .matchPass now
      · obtain ⟨now, rfl⟩ := hmatch
        exact (connection_matchPass h hclosing now hcon).imp_right Or.inl
      by_cases hscan : ∃ now, a = .scanPass now
      · obtain ⟨now, rfl⟩ := hscan
        have hsame : (o.act (.scanPass now)).session.connections = o.session.connections :=
          Session.scanPass_connections now o.session
        rw [hsame]
        exact .inl hcon
      have hbooks := books_act_of_no_pass harrival (not_exists.mp hmatch) (not_exists.mp hscan)
      have hsame : (o.act a).session.connections = o.session.connections :=
        congrArg Books.connections hbooks
      rw [hsame]
      exact .inl hcon

/-- What an operation does while a shutdown is on. -/
structure OnlyDrains (o : Office) (a : Action) : Prop where
  closing : (o.act a).session.shutdown.graceful = true
  /-- No SYN is filed. -/
  unfiled : ∀ syn, o.arrival? a ≠ some (.syn syn)
  /-- Every SYN was there before, with another mark perhaps. -/
  syns : ∀ id syn', (o.act a).session.syns.get? id = some syn' →
    ∃ syn, o.session.syns.get? id = some syn ∧ syn'.unmarked = syn.unmarked
  headers : (o.act a).session.tally.headers = o.session.tally.headers
  headerDups : (o.act a).session.tally.headerDups = o.session.tally.headerDups
  answered : ∀ e, o.Reports e a → e.verdict ≠ .noSyn
  /-- Every connection stays as it is, leaves in an accepted event, or is replaced. -/
  connections : ∀ id con, o.session.connections.get? id = some con →
    (o.act a).session.connections.get? id = some con ∨
      (∃ syn guessed, o.Reports (.accepted con syn guessed) a) ∨
      ∃ later, o.arrival? a = some (.connection later) ∧ later.flowId = id ∧
        (o.act a).session.connections.get? id = some later

theorem onlyDrains_of_closing (h : o.session.Orderly)
    (hclosing : o.session.shutdown.graceful = true) (a : Action) : o.OnlyDrains a where
  closing := graceful_act h.filed hclosing a
  unfiled := arrival?_ne_syn hclosing a
  syns := by
    intro id syn' hget
    have hno : ¬ Refiles id o a := fun ⟨syn, harrival, _⟩ => arrival?_ne_syn hclosing a syn harrival
    obtain ⟨syn, hsyn, ⟨rfl, _⟩ | ⟨_, _, _, rfl⟩⟩ := pending_before h hget hno
    · exact ⟨syn', hsyn, rfl⟩
    · exact ⟨syn, hsyn, rfl⟩
  headers := (headers_act hclosing a).1
  headerDups := (headers_act hclosing a).2
  answered _ hreports := hreports.ne_noSyn h hclosing
  connections _ _ hcon := connection_act h hclosing a hcon

/-- What a history has left unchanged or only drained since a shutdown began. -/
structure DrainedSince (o o' : Office) : Prop where
  closing : o'.session.shutdown.graceful = true
  syns : ∀ id syn', o'.session.syns.get? id = some syn' →
    ∃ syn, o.session.syns.get? id = some syn ∧ syn'.unmarked = syn.unmarked
  headers : o'.session.tally.headers = o.session.tally.headers
  headerDups : o'.session.tally.headerDups = o.session.tally.headerDups
  answered : o'.books.events.filter (fun e => e.verdict = .noSyn) =
    o.books.events.filter fun e => e.verdict = .noSyn

theorem DrainedSince.refl (hclosing : o.session.shutdown.graceful = true) : o.DrainedSince o :=
  ⟨hclosing, fun _ syn hget => ⟨syn, hget, rfl⟩, rfl, rfl, rfl⟩

theorem DrainedSince.act {o' : Office} (h : o.DrainedSince o') (horderly : o'.session.Orderly)
    (a : Action) : o.DrainedSince (o'.act a) := by
  have hdrains := onlyDrains_of_closing horderly h.closing a
  refine ⟨hdrains.closing, ?_, hdrains.headers.trans h.headers,
    hdrains.headerDups.trans h.headerDups, ?_⟩
  · intro id syn'' hget
    obtain ⟨syn', hsyn', hsame⟩ := hdrains.syns id syn'' hget
    obtain ⟨syn, hsyn, hsame'⟩ := h.syns id syn' hsyn'
    exact ⟨syn, hsyn, hsame.trans hsame'⟩
  · obtain ⟨new, hnew⟩ := events_act horderly.filed a
    have hnone : new.filter (fun e => e.verdict = .noSyn) = [] := by
      apply List.filter_eq_nil_iff.mpr
      intro e hmem
      simpa using hdrains.answered e ⟨new, hnew, hmem⟩
    rw [hnew, List.filter_append, hnone, List.append_nil, h.answered]

theorem DrainedSince.run {o' : Office} (h : o.DrainedSince o') (horderly : o'.session.Orderly)
    (actions : List Action) : o.DrainedSince (o'.run actions) := by
  induction actions generalizing o' with
  | nil => exact h
  | cons a rest ih => exact ih (h.act horderly a) (orderly_act horderly a)

/-- From the moment at which a shutdown is on, graceful or fast, it stays on, no SYN comes in or is
replaced, the counters of the header stream stand still, no connection is reported without SYN, and
each operation takes connections out of their table only by an accepted event or by a later
connection of the same flow. -/
theorem shutdown_only_drains {settings : Settings} {output : Nat → Delivery} {before : List Action}
    (hbegun : ((start settings output).run before).session.shutdown.graceful = true ∨
      ((start settings output).run before).session.shutdown.fast = true)
    (more : List Action) :
    ((start settings output).run before).DrainedSince
        ((start settings output).run (before ++ more)) ∧
      ∀ a, ((start settings output).run (before ++ more)).OnlyDrains a := by
  have horderly := orderly_run (orderly_start settings output) before
  have hclosing : ((start settings output).run before).session.shutdown.graceful = true := by
    rcases hbegun with hgraceful | hfast
    · exact hgraceful
    · refine graceful_of_fast_run (filed_start settings output) (fun hfast => ?_) before hfast
      cases hfast
  rw [run_append]
  have hdrained := (DrainedSince.refl hclosing).run horderly more
  exact ⟨hdrained, onlyDrains_of_closing (orderly_run horderly more) hdrained.closing⟩

/-- A session that is told to end while a connection is pending. -/
def exampleEnding : Office :=
  (start CommandLine.Choices.standard.resolve.settings fun _ => .written).run
    [.connection exampleConnection, .requestShutdown "Test"]

/-- The SYN of that connection comes too late, and a pass, however late, only drains. -/
theorem exampleEnding_drains :
    exampleEnding.session.shutdown.graceful = true ∧
      exampleEnding.DrainedSince (exampleEnding.run [.header exampleHeader]) ∧
      (exampleEnding.run [.header exampleHeader]).OnlyDrains (.matchPass 500.0) := by
  have hbegun : exampleEnding.session.shutdown.graceful = true := by decide +kernel
  obtain ⟨hsince, honly⟩ := shutdown_only_drains (.inl hbegun) [.header exampleHeader]
  exact ⟨hbegun, hsince, honly (.matchPass 500.0)⟩

end Office

end FlowVerdict
