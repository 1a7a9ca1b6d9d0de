import FlowVerdict.Proofs.FlowText
import FlowVerdict.Proofs.Orderly

/-!
# Every accepted event is about one flow

The two records of a pair are joined by the texts of their flows, or of their relaxed keys. Since
these texts tell their parts, whatever is in the address, the parts that an event takes from the
connection agree with those that it takes from the SYN.
-/

namespace FlowVerdict

/-- A correction changes nothing but source port and status. -/
theorem Kernel.Snapshot.reconcile_keeps (snapshot : Kernel.Snapshot) (con : Connection) :
    (snapshot.reconcile con).srcIp = con.srcIp ∧
      (snapshot.reconcile con).destPort = con.destPort := by
  unfold reconcile
  split
  · exact ⟨rfl, rfl⟩
  · exact ⟨rfl, rfl⟩
  · split <;> exact ⟨rfl, rfl⟩

/-- A correction keeps the relaxed key. -/
theorem Kernel.Snapshot.relaxed_reconcile (snapshot : Kernel.Snapshot) (con : Connection) :
    (snapshot.reconcile con).flowId.relaxed = con.flowId.relaxed := by
  obtain ⟨hsource, hdest⟩ := snapshot.reconcile_keeps con
  rw [Connection.flowId, Connection.flowId, FlowId.relaxed_ofPorts, FlowId.relaxed_ofPorts, hsource,
    hdest]

/-- What the event of a pair takes from the connection agrees with what it takes from the SYN. -/
structure Event.OneFlow (e : Event) (con : Connection) (syn : Syn) : Prop where
  pair : e = .accepted con syn e.guessed
  srcIp : e.srcIp = e.ip.srcAddr
  tcp : e.tcp = some syn.tcp
  destPort : e.destPort = syn.tcp.destPort
  srcPort : e.srcPort = syn.tcp.srcPort
  /-- Only after a guess may the connection have another source port. -/
  unguessed : e.guessed ≠ some true → con.srcPort = syn.tcp.srcPort

theorem Event.oneFlow_accepted {con : Connection} {syn : Syn} {guessed : Option Bool}
    (hkey : con.flowId.relaxed = syn.flowId.relaxed)
    (hflow : guessed ≠ some true → con.flowId = syn.flowId) :
    (Event.accepted con syn guessed).OneFlow con syn := by
  obtain ⟨hsource, hdest⟩ := FlowId.relaxed_ofPorts_inj hkey
  refine ⟨rfl, hsource, rfl, hdest, rfl, fun hno => ?_⟩
  obtain ⟨_, _, hsrc⟩ := FlowId.ofPorts_inj (hflow hno)
  exact hsrc

namespace Office

variable {o : Office} {e : Event} {a : Action}

/-- A matching pass joins a connection with a SYN: both are pending under their flows when it
begins, and one of its changes lets them leave together. -/
structure Joins (o : Office) (now : Float) (con : Connection) (syn : Syn) (guessed : Option Bool) :
    Prop where
  connection_pending : o.books.connections.get? con.flowId = some con
  syn_pending : o.books.syns.get? syn.flowId = some syn
  departed : ∃ cs, o.books.Drains cs (o.act (.matchPass now)).books ∧
    .joined con syn guessed ∈ Books.departures cs

/-- Nothing but a matching pass reports a pair, and the pair is of one flow. -/
theorem Reports.of_one_flow (hreports : o.Reports e a) (h : o.session.Orderly)
    (hverdict : e.verdict = .accepted) :
    ∃ now con syn, a = .matchPass now ∧ o.Joins now con syn e.guessed ∧ e.OneFlow con syn := by
  rcases hreports.is_pass with ⟨now, rfl⟩ | ⟨now, rfl⟩
  · obtain ⟨cs, d, hcs, hmatches, hd, rfl⟩ := hreports.of_matchPass h
    rcases hmatches _ (Books.mem_departures_iff.mp hd) with
      ⟨con, heq⟩ | ⟨con, syn, guessed, heq, hkey, hflow⟩
    · cases heq
      cases hverdict
    · cases heq
      refine ⟨now, con, syn, rfl, ⟨?_, ?_, cs, hcs, hd⟩, Event.oneFlow_accepted hkey hflow⟩
      · exact hcs.connection_pending hd rfl
      · exact hcs.syn_pending (fun c hc => (hmatches c hc).departed) hd rfl
  · obtain ⟨_, _, _, _, rfl⟩ := hreports.of_scanPass
    cases hverdict

/-- In every session each record is filed under its own flow, no correction changes a relaxed key,
and every accepted event reports a connection and a SYN that a matching pass joined, with addresses
and ports that agree; unless the pair was guessed, the source port of the connection agrees too. -/
theorem accepted_of_one_flow (settings : Settings) (output : Nat → Delivery)
    (actions : List Action) :
    ((start settings output).run actions).books.Filed ∧
      (∀ (snapshot : Kernel.Snapshot) (con : Connection),
        (snapshot.reconcile con).flowId.relaxed = con.flowId.relaxed) ∧
      ∀ e ∈ ((start settings output).run actions).books.events, e.verdict = .accepted →
        Sometime (fun o a => ∃ now con syn, a = .matchPass now ∧ o.Joins now con syn e.guessed ∧
          e.OneFlow con syn) (start settings output) actions := by
  have hstart := orderly_start settings output
  refine ⟨(orderly_run hstart actions).filed, Kernel.Snapshot.relaxed_reconcile, ?_⟩
  intro e hmem hverdict
  rcases reported_in_run hstart.filed hmem with hold | ⟨before, a, after, hsplit, hreports⟩
  · cases hold
  · exact ⟨before, a, after, hsplit, hreports.of_one_flow (orderly_run hstart before) hverdict⟩

end Office

end FlowVerdict
