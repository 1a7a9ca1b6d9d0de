import FlowVerdict.Proofs.Office

/-!
# The accounts of a session

Every record that was counted when it came in is counted once more where it is now: pending,
replaced, reported, or given up. A pass moves records from the tables to the events and counts them
on the way; its report says how many.
-/

namespace FlowVerdict

/-- How many verdicts of each kind a stretch of a pass has reported. -/
structure Verdicts where
  accepted : Nat := 0
  /-- Those of the accepted pairs that were guessed. -/
  guesses : Nat := 0
  noSyns : Nat := 0
  scans : Nat := 0

def PassReport.verdicts (report : PassReport) : Verdicts where
  accepted := report.exact + report.guessed
  guesses := report.guessed
  noSyns := report.noSyn

/-- The connections that a matching pass has decided about. -/
def PassReport.decided (report : PassReport) : Nat :=
  report.exact + report.guessed + report.noSyn + report.pending

def Tally.after (t : Tally) (out : Verdicts) : Tally :=
  { t with
    accepted := t.accepted + out.accepted
    guesses := t.guesses + out.guesses
    noSyns := t.noSyns + out.noSyns
    synScans := t.synScans + out.scans }

namespace Session

variable {s s' : Session}

/-- What was reported has left the tables and is counted, and nothing else has changed in number. -/
structure Settles (s : Session) (out : Verdicts) (s' : Session) : Prop where
  tally : s'.tally = s.tally.after out
  syns : s'.syns.size + out.accepted + out.scans = s.syns.size
  connections : s'.connections.size + out.accepted + out.noSyns = s.connections.size

theorem Settles.refl (s : Session) : s.Settles {} s :=
  ⟨rfl, rfl, rfl⟩

theorem tally_emit (e : Event) (s : Session) : (s.emit e).tally = s.tally.count e.verdict := by
  unfold emit
  dsimp only
  split <;> rfl

theorem size_syns_take {syns rest : SynTable} {id : FlowId} {syn : Syn}
    (h : syns.get? id = some syn) (hrest : rest.records = syns.records.erase id) :
    rest.size + 1 = syns.size := by
  rw [SynTable.size, hrest]
  exact Table.size_erase h

/-- An event settles what it reports, if the records have left their tables. -/
theorem settles_emit {out : Verdicts} {e : Event}
    (htally : s'.tally.count e.verdict = s.tally.after out)
    (hsyns : s'.syns.size + out.accepted + out.scans = s.syns.size)
    (hcons : s'.connections.size + out.accepted + out.noSyns = s.connections.size) :
    s.Settles out (s'.emit e) where
  tally := by rw [tally_emit, htally]
  syns := by rw [emit_syns, hsyns]
  connections := by rw [emit_connections, hcons]

theorem Visit.settles {before : Session} {id : FlowId} {report : PassReport}
    {state : Session × PassReport} (h : Visit id before report state)
    (hs : s.Settles report.verdicts before) : s.Settles state.2.verdicts state.1 := by
  obtain ⟨htally, hsyns, hcons⟩ := hs
  simp only [PassReport.verdicts, Tally.after] at htally hsyns hcons
  cases h with
  | skipped | pending => exact ⟨htally, hsyns, hcons⟩
  | paired hcon htake =>
      obtain ⟨hsyn, hrecords⟩ := SynTable.of_take?_eq_some htake
      have hless := size_syns_take hsyn hrecords
      have hfewer := Table.size_erase hcon
      refine settles_emit ?_ (by dsimp only [withTables, PassReport.verdicts]; omega)
        (by dsimp only [withTables, PassReport.verdicts]; omega)
      simp only [withTables, Event.accepted, Tally.count, htally, Tally.after, PassReport.verdicts]
      congr 1
      omega
  | guessed hcon htake =>
      obtain ⟨hsyn, hrecords⟩ := SynTable.of_takeRelaxed?_eq_some htake
      have hless := size_syns_take hsyn hrecords
      have hfewer := Table.size_erase hcon
      refine settles_emit ?_ (by dsimp only [withTables, tallied, PassReport.verdicts]; omega)
        (by dsimp only [withTables, tallied, PassReport.verdicts]; omega)
      simp only [withTables, tallied, Event.accepted, Tally.count, htally, Tally.after,
        PassReport.verdicts]
      congr 1
  | unanswered hcon =>
      have hfewer := Table.size_erase hcon
      refine settles_emit ?_ (by dsimp only [withTables, PassReport.verdicts]; omega)
        (by dsimp only [withTables, PassReport.verdicts]; omega)
      simp only [withTables, Event.noSyn, Tally.count, htally, Tally.after, PassReport.verdicts]
      congr 1

theorem Examination.settles {before : Session} {horizon : Option Float} {now : Float} {id : FlowId}
    {emitted : Nat} {state : Session × Nat} (h : Examination horizon now id before emitted state)
    (hs : s.Settles { scans := emitted } before) : s.Settles { scans := state.2 } state.1 := by
  obtain ⟨htally, hsyns, hcons⟩ := hs
  simp only [Tally.after] at htally hsyns hcons
  cases h with
  | skipped => exact ⟨htally, hsyns, hcons⟩
  | reported _ _ _ htake =>
      obtain ⟨hsyn, hrecords⟩ := SynTable.of_take?_eq_some htake
      have hless := size_syns_take hsyn hrecords
      refine settles_emit ?_ (by dsimp only [withTables]; omega)
        (by dsimp only [withTables]; omega)
      simp only [withTables, Event.synScan, Tally.count, htally, Tally.after]
      congr 1
  | marked =>
      refine ⟨htally, ?_, hcons⟩
      simp only [withTables, SynTable.size, SynTable.modify, Table.size_modify] at hsyns ⊢
      exact hsyns

theorem matchPass_settles (now : Float) (s : Session) :
    s.Settles (s.matchPass now).1.verdicts (s.matchPass now).2 := by
  let settled (state : Session × PassReport) : Prop := s.Settles state.2.verdicts state.1
  have hexact : settled (s.connections.byAge.foldl matchExact (s, {})) :=
    List.foldlRecOn _ matchExact (.refl s) fun _ h id _ =>
      (matchExact_visits _ _ id).settles h
  exact List.foldlRecOn (motive := settled) _ (decideRest now) hexact
    fun _ h id _ => (decideRest_visits now _ _ id).settles h

theorem scanPass_settles (now : Float) (s : Session) :
    s.Settles { scans := (s.scanPass now).1 } (s.scanPass now).2 := by
  let settled (state : Session × Nat) : Prop := s.Settles { scans := state.2 } state.1
  exact List.foldlRecOn (motive := settled) _ (scanOne s.horizon? now) (.refl s)
    fun _ h id _ => (scanOne_examines _ now _ _ id).settles h

/-- A pair that is joined is decided about, and pending no more. -/
theorem decided_matchExact (state : Session × PassReport) (id : FlowId) :
    (matchExact state id).2.decided + (matchExact state id).1.connections.size =
      state.2.decided + state.1.connections.size := by
  obtain ⟨s, report⟩ := state
  cases hcon : s.connections.get? id with
  | none => rw [matchExact_eq_of_absent (.inl hcon)]
  | some con =>
      have hfewer := Table.size_erase hcon
      cases htake : s.syns.take? id with
      | none => simp only [matchExact, hcon, htake]
      | some taken =>
          simp only [matchExact, hcon, htake, emit_connections, PassReport.decided]
          omega

theorem decided_decideRest {state : Session × PassReport} {id : FlowId} {con : Connection}
    (h : state.1.connections.get? id = some con) (now : Float) :
    (decideRest now state id).2.decided = state.2.decided + 1 := by
  obtain ⟨s, report⟩ := state
  simp only at h
  cases hguess : s.guess? now id con with
  | some taken =>
      simp only [decideRest, h, hguess, PassReport.decided]
      omega
  | none =>
      simp only [decideRest, h, hguess]
      split
      · simp only [PassReport.decided]
        omega
      · simp only [PassReport.decided]
        omega

/-- A walk over pending connections decides about each of them once. -/
theorem decided_walk {ids : List FlowId} {state : Session × PassReport} (hnodup : ids.Nodup)
    (hall : ∀ id ∈ ids, ∃ con, state.1.connections.get? id = some con) (now : Float) :
    (ids.foldl (decideRest now) state).2.decided = state.2.decided + ids.length := by
  induction ids generalizing state with
  | nil => rfl
  | cons head tail ih =>
      obtain ⟨hhead, htail⟩ := List.nodup_cons.mp hnodup
      obtain ⟨con, hcon⟩ := hall head List.mem_cons_self
      rw [List.foldl_cons, ih htail, decided_decideRest hcon, List.length_cons]
      · omega
      · intro id hmem
        have hne : id ≠ head := fun heq => hhead (heq ▸ hmem)
        rw [(decideRest_visits now state.1 state.2 head).get?_connections_of_ne hne]
        exact hall id (List.mem_cons_of_mem head hmem)

/-- A matching pass decides about every connection that is pending when it begins. -/
theorem decided_matchPass (now : Float) (s : Session) :
    (s.matchPass now).1.decided = s.connections.size := by
  have hexact : ∀ (ids : List FlowId) (state : Session × PassReport),
      (ids.foldl matchExact state).2.decided + (ids.foldl matchExact state).1.connections.size =
        state.2.decided + state.1.connections.size := by
    intro ids
    induction ids with
    | nil => exact fun _ => rfl
    | cons head tail ih => exact fun state => (ih _).trans (decided_matchExact state head)
  set middle := s.connections.byAge.foldl matchExact (s, {}) with hmiddle
  have hperm := byAge_perm middle.1.connections
  have hwalk : (s.matchPass now).1.decided =
      middle.2.decided + middle.1.connections.byAge.length := by
    refine decided_walk (hperm.nodup_iff.mpr middle.1.connections.nodup_keys) ?_ now
    intro id hmem
    exact Table.mem_keys_iff.mp (hperm.mem_iff.mp hmem)
  have hlength : middle.1.connections.byAge.length = middle.1.connections.size :=
    hperm.length_eq.trans (List.length_map _)
  rw [hwalk, hlength, hexact s.connections.byAge (s, {})]
  exact Nat.zero_add _

/-- What is left after a matching pass is what it reports as pending. -/
theorem pending_matchPass (now : Float) (s : Session) :
    (s.matchPass now).1.pending = (s.matchPass now).2.connections.size := by
  have hdecided := decided_matchPass now s
  have hsettled := (matchPass_settles now s).connections
  simp only [PassReport.decided, PassReport.verdicts] at hdecided hsettled
  omega

/-- The counters add up to what is pending, after `steps` operations. Of the connections that were
read, `unfiled` many were not filed. -/
structure Balanced (s : Session) (unfiled steps : Nat) : Prop where
  headers : s.tally.headers =
    s.syns.size + s.tally.headerDups + s.tally.accepted + s.tally.synScans
  connections : s.tally.connections =
    s.connections.size + s.tally.connectionDups + s.tally.accepted + s.tally.noSyns + unfiled
  guesses : s.tally.guesses ≤ s.tally.accepted
  headers_le : s.tally.headers ≤ steps
  connections_le : s.tally.connections ≤ steps

namespace Balanced

variable {unfiled steps : Nat}

theorem next (h : s.Balanced unfiled steps) : s.Balanced unfiled (steps + 1) :=
  { h with
    headers_le := Nat.le_succ_of_le h.headers_le
    connections_le := Nat.le_succ_of_le h.connections_le }

theorem settles {out : Verdicts} (h : s.Balanced unfiled steps) (hs : s.Settles out s')
    (hguesses : out.guesses ≤ out.accepted) : s'.Balanced unfiled steps := by
  obtain ⟨hheaders, hconnections, hle, hheadersLe, hconnectionsLe⟩ := h
  obtain ⟨htally, hsyns, hcons⟩ := hs
  constructor <;> rw [htally] <;> simp only [Tally.after] <;> omega

/-- What changes neither counters nor tables keeps the balance. -/
theorem still (h : s.Balanced unfiled steps) (hs : s.Settles {} s') : s'.Balanced unfiled steps :=
  h.settles hs (Nat.le_refl 0)

theorem fileSyn (h : s.Balanced unfiled steps) (syn : Syn) :
    (s.fileSyn syn).Balanced unfiled (steps + 1) := by
  obtain ⟨hheaders, hconnections, hle, hheadersLe, hconnectionsLe⟩ := h
  have hsize := s.syns.size_insert syn.flowId syn
  rw [fileSyn_eq]
  constructor <;> simp only [logAll, tallied, withTables] <;> omega

theorem countConnection (h : s.Balanced unfiled steps) :
    s.countConnection.Balanced (unfiled + 1) (steps + 1) := by
  obtain ⟨hheaders, hconnections, hle, hheadersLe, hconnectionsLe⟩ := h
  constructor <;> simp only [Session.countConnection, tallied] <;> omega

theorem fileConnection (h : s.Balanced (unfiled + 1) steps) (con : Connection) :
    (s.fileConnection con).Balanced unfiled steps := by
  obtain ⟨hheaders, hconnections, hle, hheadersLe, hconnectionsLe⟩ := h
  have hsize := s.connections.size_insert (s.reconciled con).flowId (s.reconciled con)
  rw [fileConnection_eq]
  constructor <;> simp only [logAll, tallied, withTables] <;> omega

end Balanced

end Session

namespace Office

variable {o : Office} {a : Action} {unfiled steps : Nat}

def dropped (o : Office) : List Action → Nat
  | [] => 0
  | a :: rest => (if o.drops a then 1 else 0) + (o.act a).dropped rest

def Balanced (o : Office) (given steps : Nat) : Prop :=
  o.session.Balanced (given + o.held.length) steps

variable {given steps : Nat}

theorem balanced_start (settings : Settings) (output : Nat → Delivery) :
    (start settings output).Balanced 0 0 :=
  ⟨rfl, rfl, Nat.le_refl 0, Nat.le_refl 0, Nat.le_refl 0⟩

/-- One operation keeps the balance. -/
theorem Balanced.act (h : o.Balanced given steps) (a : Action) :
    (o.act a).Balanced (given + if o.drops a then 1 else 0) (steps + 1) := by
  have hnext : o.session.Balanced (given + o.held.length) (steps + 1) := h.next
  have hcounted : o.session.countConnection.Balanced (given + o.held.length + 1) (steps + 1) :=
    Session.Balanced.countConnection h
  have hrest : ∀ {place : Nat} {held : Held}, o.held[place]? = some held →
      o.session.Balanced (given + (o.held.eraseIdx place).length + 1) (steps + 1) := by
    intro place held hheld
    obtain ⟨hplace, _⟩ := List.getElem?_eq_some_iff.mp hheld
    have hlength : (o.held.eraseIdx place).length + 1 = o.held.length := by
      rw [List.length_eraseIdx_of_lt hplace]
      omega
    rwa [Nat.add_assoc, hlength]
  have hturn := o.turn a
  generalize o.act a = o', o.arrival? a = r, o.drops a = dropped at hturn ⊢
  cases hturn with
  | synFiled => exact Session.Balanced.fileSyn h _
  | filed => exact hcounted.fileConnection _
  | held => simpa [Balanced, Nat.add_assoc] using hcounted
  | refused => simpa [Balanced, Nat.add_right_comm] using hcounted
  | settled hheld => exact (hrest hheld).fileConnection _
  | abandoned hheld => simpa [Balanced, Nat.add_right_comm] using hrest hheld
  | matchPass now =>
      exact hnext.settles (Session.matchPass_settles now o.session) (Nat.le_add_left _ _)
  | scanPass now => exact hnext.settles (Session.scanPass_settles now o.session) (Nat.le_refl 0)
  | noted | sampled | closing => exact hnext.still ⟨rfl, rfl, rfl⟩

theorem Balanced.run (h : o.Balanced given steps) (actions : List Action) :
    (o.run actions).Balanced (given + o.dropped actions) (steps + actions.length) := by
  induction actions generalizing o given steps with
  | nil => exact h
  | cons a rest ih =>
      have hrest := ih (h.act a)
      rw [Nat.add_assoc, Nat.add_assoc, Nat.add_comm 1] at hrest
      exact hrest

/-- In every session the counters add up: each record that was counted on its way in is pending, was
replaced, or is counted with the events that report it; of the connections some may have been given
up, or still wait. No counter exceeds the number of operations. A matching pass accounts in its
report for every connection that was pending, and its report is what it adds to the counters. -/
theorem counters_add_up (settings : Settings) (output : Nat → Delivery) (actions : List Action) :
    let o := (start settings output).run actions
    let t := o.session.tally
    (t.headers = o.session.syns.size + t.headerDups + t.accepted + t.synScans ∧
      t.connections = o.session.connections.size + t.connectionDups + t.accepted + t.noSyns +
        ((start settings output).dropped actions + o.held.length) ∧
      t.guesses ≤ t.accepted) ∧
    (∀ counter ∈ [t.headers, t.headerDups, t.connections, t.connectionDups, t.accepted, t.synScans,
      t.noSyns, t.guesses], counter ≤ actions.length) ∧
    ∀ now,
      let report := (o.session.matchPass now).1
      let s := (o.session.matchPass now).2
      report.exact + report.guessed + report.noSyn + report.pending = o.session.connections.size ∧
        report.pending = s.connections.size ∧
        s.tally.accepted = t.accepted + (report.exact + report.guessed) ∧
        s.tally.guesses = t.guesses + report.guessed ∧
        s.tally.noSyns = t.noSyns + report.noSyn := by
  intro o t
  have hbalanced : o.Balanced (0 + (start settings output).dropped actions) (0 + actions.length) :=
    (balanced_start settings output).run actions
  obtain ⟨hheaders, hconnections, hguesses, hheadersLe, hconnectionsLe⟩ := hbalanced
  rw [Nat.zero_add] at hconnections hheadersLe hconnectionsLe
  refine ⟨⟨hheaders, hconnections, hguesses⟩, ?_, fun now => ?_⟩
  · simp only [t, List.forall_mem_cons, List.not_mem_nil, false_implies, implies_true, and_true]
    omega
  · have htally := (Session.matchPass_settles now o.session).tally
    refine ⟨Session.decided_matchPass now o.session, Session.pending_matchPass now o.session, ?_⟩
    simp only [htally, Tally.after, PassReport.verdicts]
    exact ⟨rfl, rfl, rfl⟩

end Office

end FlowVerdict
