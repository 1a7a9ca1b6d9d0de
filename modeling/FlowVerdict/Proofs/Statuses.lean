import FlowVerdict.Proofs.Frame
import FlowVerdict.Proofs.Marks

/-!
# Statuses in events

A scan carries the mark of its SYN; every other event carries the status that the correction gave to
its connection, if the kernel's connection table is sampled at all.
-/

namespace FlowVerdict

namespace Session

variable {s : Session} {con : Connection}

theorem isSome_status_reconciled (h : con.status = none) (s : Session) :
    (s.reconciled con).status.isSome = s.snapshot.isSome := by
  unfold reconciled
  split
  · next snapshot hsnapshot =>
      rw [hsnapshot, Option.isSome_some]
      unfold Kernel.Snapshot.reconcile
      split
      · rfl
      · rfl
      · split <;> rfl
  · next hsnapshot => rw [hsnapshot, h, Option.isSome_none, Option.isSome_none]

end Session

namespace Office

variable {o : Office} {e : Event} {a : Action} {con : Connection}

/-- Pending connections have a status if sampling is on, and connections that wait have none yet. -/
structure Stamped (o : Office) : Prop where
  pending : ∀ id con, o.books.connections.get? id = some con →
    con.status.isSome = o.session.snapshot.isSome
  held : ∀ held ∈ o.held, held.connection.status = none

theorem Stamped.arrival (h : o.Stamped) (harrival : o.arrival? a = some (.connection con)) :
    con.status.isSome = o.session.snapshot.isSome := by
  obtain ⟨parsed, rfl, hparsed⟩ := of_arrival?_eq_connection harrival
  have hstatus : parsed.status = none := by
    rcases hparsed with ⟨line, _, hparse⟩ | ⟨held, hmem, rfl⟩
    · exact Connection.status_of_parse hparse
    · exact h.held held hmem
  exact Session.isSome_status_reconciled hstatus o.session

theorem Stamped.act (h : o.Stamped) (hf : o.books.Filed) (a : Action) : (o.act a).Stamped where
  pending id con hget := by
    rw [(act_keeps hf a).sampling]
    rcases connection_before_act hf hget with harrival | hbefore
    · exact h.arrival harrival
    · exact h.pending id con hbefore
  held held hmem := by
    rcases held_before_act hmem with hbefore | ⟨_, _, hparse⟩
    · exact h.held held hbefore
    · exact Connection.status_of_parse hparse

theorem Stamped.run (h : o.Stamped) (hf : o.books.Filed) (history : List Action) :
    (o.run history).Stamped := by
  induction history generalizing o with
  | nil => exact h
  | cons a rest ih => exact ih (h.act hf a) (filed_act hf a)

/-- What is no scan carries a status exactly if sampling is on. -/
theorem Stamped.isSome_status_of_reports (h : o.Stamped) (horderly : o.session.Orderly)
    (hreports : o.Reports e a) (hverdict : e.verdict ≠ .synScan) :
    e.status.isSome = o.session.snapshot.isSome := by
  rcases hreports.is_pass with ⟨now, rfl⟩ | ⟨now, rfl⟩
  · obtain ⟨cs, d, hcs, _, hd, rfl⟩ := hreports.of_matchPass horderly
    cases d with
    | joined con syn guessed => exact h.pending _ con (hcs.connection_pending hd rfl)
    | unanswered con => exact h.pending _ con (hcs.connection_pending hd rfl)
    | scanned syn => exact absurd rfl hverdict
  · obtain ⟨_, _, _, _, rfl⟩ := hreports.of_scanPass
    exact absurd rfl hverdict

theorem stamped_start (settings : Settings) (output : Nat → Delivery) :
    (start settings output).Stamped := by
  constructor
  · rintro id con ⟨⟩
  · rintro held ⟨⟩

theorem isSome_snapshot_start (settings : Settings) (output : Nat → Delivery) :
    (start settings output).session.snapshot.isSome = settings.tracking := by
  rw [start, Session.ofSettings]
  cases settings.tracking <;> rfl

/-- What the statuses in a session say about its history. -/
structure TellsHistory (o : Office) (history : List Action) : Prop where
  /-- The mark of a pending SYN tells of the passes since the SYN was filed. -/
  pending : ∀ id syn, (o.run history).session.syns.get? id = some syn →
    ∃ before a later, history = before ++ a :: later ∧ o.Since before a later syn
  settled : ∀ id syn, (o.run history).session.syns.get? id = some syn →
    syn.status ≠ some .changed ∧ syn.status ≠ some .failed
  /-- While no other SYN of its flow is filed, a SYN that was found alive stays so. -/
  stays_found : ∀ more id syn syn', (o.run history).session.syns.get? id = some syn →
    syn.status = some .found → ¬ Sometime (Refiles id) (o.run history) more →
    (o.run (history ++ more)).session.syns.get? id = some syn' → syn'.status = some .found
  /-- A scan carries the mark of its SYN, which tells of the passes up to the one that reports
  it. -/
  scans : ∀ e ∈ (o.run history).books.events, e.verdict = .synScan →
    ∃ before a later now after syn, history = before ++ a :: later ++ .scanPass now :: after ∧
      (o.run (before ++ a :: later)).session.syns.get? syn.flowId = some syn ∧
      e = .synScan (Session.examined false syn) ∧
      o.Since before a (later ++ [.scanPass now]) (Session.examined false syn) ∧
      e.status = (Session.examined false syn).status

theorem tellsHistory_start (settings : Settings) (output : Nat → Delivery)
    (history : List Action) : (start settings output).TellsHistory history := by
  have hstart := orderly_start settings output
  have hempty : ∀ id, (start settings output).session.syns.get? id = none := fun _ => rfl
  constructor
  · intro id syn hget
    exact pending_since hstart hempty hget
  · intro id syn hget
    obtain ⟨before, a, later, _, hsince⟩ := pending_since hstart hempty hget
    rcases hsince.marked.settled with heq | heq | heq <;> simp [heq]
  · intro more id syn syn' hget hfound hno hlater
    rw [run_append] at hlater
    refine Office.stays_found (orderly_run hstart history) (fun other hother => ?_) hno hlater
    rw [Option.some.inj (hother.symm.trans hget), hfound]
  · intro e hmem hverdict
    rcases reported_in_run hstart.filed hmem with hold | ⟨front, a, after, rfl, hreports⟩
    · cases hold
    · obtain ⟨before, first, later, now, syn, rfl, rfl, hsyn, rfl, hsince⟩ :=
        scan_since hstart hempty hreports hverdict
      exact ⟨before, first, later, now, after, syn, rfl, hsyn, rfl, hsince, rfl⟩

/-- Without sampling no SYN is found alive. -/
theorem not_findsAlive_of_untracked {o : Office} (hf : o.books.Filed)
    (hsnapshot : o.session.snapshot = none) (syn : Syn) (first later : List Action) :
    ¬ Sometime (FindsAlive syn) (o.run first) later := by
  rintro ⟨before, a, after, _, _, snapshot, hsome, _⟩
  rw [← run_append, snapshot_run_eq_none hf hsnapshot] at hsome
  cases hsome

/-- In every session the mark of a SYN tells its history, and so does the status of its scan.
Without sampling every scan has the status of a flow that was not found and all other events have
none; with sampling all of them have one. A pass whose wait is cut short, and only such a pass, does
nothing, so it is no part of a history. -/
theorem status_tells_history (settings : Settings) (output : Nat → Delivery)
    (history : List Action) :
    (start settings output).TellsHistory history ∧
      (∀ (s : Session) (meanwhile : Session → Session) (now : Float),
        s.scan meanwhile now =
          if s.isCutShort meanwhile then (0, if s.shutdown.fast then s else meanwhile s)
          else (s.afterWait meanwhile).scanPass now) ∧
      ∀ e ∈ ((start settings output).run history).books.events,
        (settings.tracking = false →
          e.status = if e.verdict = .synScan then some .absent else none) ∧
        (settings.tracking = true → e.verdict ≠ .synScan → e.status.isSome = true) := by
  have hstart := orderly_start settings output
  have htells := tellsHistory_start settings output history
  refine ⟨htells, fun s meanwhile now => s.scan_eq meanwhile now, fun e hmem => ?_⟩
  have hother : e.verdict ≠ .synScan → e.status.isSome = settings.tracking := by
    intro hverdict
    rcases reported_in_run hstart.filed hmem with hold | ⟨before, a, after, _, hreports⟩
    · cases hold
    · have hstamped := (stamped_start settings output).run hstart.filed before
      rw [hstamped.isSome_status_of_reports (orderly_run hstart before) hreports hverdict,
        isSome_snapshot_run hstart.filed, isSome_snapshot_start]
  constructor
  · intro htracking
    split
    · next hverdict =>
        obtain ⟨before, a, later, now, after, syn, _, _, rfl, hsince, hstatus⟩ :=
          htells.scans e hmem hverdict
        have hsnapshot : (start settings output).session.snapshot = none := by
          simp [start, Session.ofSettings, htracking]
        have hnever := not_findsAlive_of_untracked hstart.filed hsnapshot
          (Session.examined false syn) (before ++ [a]) (later ++ [.scanPass now])
        rw [hstatus]
        rcases hsince.marked.settled with heq | heq | heq
        · cases heq
        · exact heq
        · exact absurd (hsince.marked.found_iff.mp heq) hnever
    · next hverdict =>
        have hnone := hother hverdict
        rw [htracking] at hnone
        exact Option.not_isSome_iff_eq_none.mp (by simp [hnone])
  · intro htracking hverdict
    rw [hother hverdict, htracking]

end Office

end FlowVerdict
