import FlowVerdict.Proofs.Frame
import FlowVerdict.Proofs.OneFlow
import FlowVerdict.Proofs.Reconciliation

/-!
# Connections that a correction gives one flow

A correction replaces the port behind NAT by the one before it. Two connections of different flows
may get one flow by it, namely if they agree in address and destination and then also in the port.
So it is with a connection that comes in under the port that another one is corrected to. Filing
both keeps the newer one; that is counted and logged.
-/

namespace FlowVerdict.Kernel

/-- The source port of a connection as the rows of a listing have it: that of the row of its name,
if it is a port, and otherwise its own. -/
def sourcePort (rs : List Row) (con : Connection) : UInt16 :=
  ((rs.find? fun r => r.conKey = con.flowId).bind Row.srcPort).getD con.srcPort

namespace Snapshot

variable {s : Snapshot} {rs : List Row}

/-- Rows of different names and of different flows, none of them known before, are all known
afterwards. -/
theorem get?_ports_foldl_merge_fresh (hnames : (rs.map Row.conKey).Nodup)
    (hflows : (rs.map Row.synKey).Nodup) (hfresh : ∀ r ∈ rs, s.conKey? r.synKey = none)
    (name : FlowId) : (rs.foldl merge s).ports.get? name =
      ((rs.find? fun r => r.conKey = name).map Row.srcPort).or (s.ports.get? name) := by
  induction rs generalizing s with
  | nil => rfl
  | cons r rest ih =>
      rw [List.map_cons, List.nodup_cons] at hnames hflows
      obtain ⟨hfirst, hrest⟩ := List.forall_mem_cons.mp hfresh
      have hfresh' : ∀ q ∈ rest, (s.merge r).conKey? q.synKey = none := by
        intro q hmem
        have hne : q.synKey ≠ r.synKey := fun heq => hflows.1 (heq ▸ List.mem_map_of_mem hmem)
        rw [conKey?_merge, if_neg hne, hrest q hmem]
      rw [List.foldl_cons, ih hnames.2 hflows.2 hfresh', get?_ports_merge, hfirst]
      by_cases hname : r.conKey = name
      · have hnone : (rest.find? fun q => decide (q.conKey = name)) = none := by
          refine List.find?_eq_none.mpr fun q hmem => ?_
          have hne : q.conKey ≠ name := fun heq =>
            hnames.1 (hname.trans heq.symm ▸ List.mem_map_of_mem hmem)
          simpa using hne
        simp [hnone, hname]
      · simp [hname, Ne.symm hname]

end Snapshot

/-- No two rows have one name in the connection stream, and no two have one in the header stream. -/
structure OneToOne (rs : List Row) : Prop where
  names : (rs.map Row.conKey).Nodup
  flows : (rs.map Row.synKey).Nodup

variable {rs : List Row} {row : Row} {listing : String} {con : Connection}

theorem OneToOne.find?_eq (h : OneToOne rs) (hmem : row ∈ rs) :
    (rs.find? fun r => r.conKey = row.conKey) = some row := by
  cases hfind : rs.find? fun r => r.conKey = row.conKey with
  | none =>
      have hno := List.find?_eq_none.mp hfind row hmem
      simp at hno
  | some found =>
      have hname : found.conKey = row.conKey := by simpa using List.find?_some hfind
      rw [List.inj_on_of_nodup_map h.names (List.mem_of_find?_eq_some hfind) hmem hname]

structure Known (listing : String) (con : Connection) (row : Row) : Prop where
  listed : ∃ line ∈ Snapshot.listingLines listing, ∃ port, row.Plain line port
  named : con.flowId = row.conKey

theorem Known.mem_rows (h : Known listing con row) : row ∈ rows listing := by
  obtain ⟨line, hline, port, hplain⟩ := h.listed
  exact List.mem_filterMap.mpr ⟨line, hline, Row.ofLine?_eq_some_iff.mpr hplain.taken⟩

/-- With the port that the listing has for it, such a connection is of the flow of the row. -/
theorem Known.ofPorts_sourcePort (h : Known listing con row) (hone : OneToOne (rows listing)) :
    FlowId.ofPorts con.srcIp con.destPort (sourcePort (rows listing) con) = row.synKey := by
  obtain ⟨line, hline, port, hplain⟩ := h.listed
  obtain ⟨source, destPort, behind, hconKey, hsynKey, hport⟩ := hplain.names
  obtain ⟨hsource, hdest, _⟩ := FlowId.ofPorts_inj (h.named.trans hconKey)
  have hfound : sourcePort (rows listing) con = port := by
    rw [sourcePort, h.named, hone.find?_eq h.mem_rows, Option.bind_some, hport, Option.getD_some]
  rw [hfound, hsource, hdest, hsynKey]

namespace Snapshot

/-- What a first cycle knows of a name is what its row says. -/
theorem get?_ports_first_cycle (hone : OneToOne (rows listing)) (grace : Nat)
    (published : Publication) (stamp : Float) (name : FlowId) :
    (cycle { grace, published } listing stamp).1.ports.get? name =
      ((rows listing).find? fun r => r.conKey = name).map Row.srcPort := by
  have hfresh : ∀ r ∈ rows listing, (age { grace, published }).conKey? r.synKey = none :=
    fun r _ => rfl
  have hempty : (age { grace, published }).ports.get? name = none := rfl
  have hports := get?_ports_foldl_merge_fresh hone.names hone.flows hfresh name
  rw [hempty, Option.or_none] at hports
  rw [cycle_eq]
  exact hports

/-- After a first cycle, a connection is corrected to the port that the listing has for it. -/
theorem reconcile_first_cycle (hone : OneToOne (rows listing)) (grace : Nat)
    (published : Publication) (stamp : Float) (con : Connection) :
    let corrected := (cycle { grace, published } listing stamp).1.reconcile con
    corrected.flowId = .ofPorts con.srcIp con.destPort (sourcePort (rows listing) con) ∧
      (corrected.status ≠ some .changed → sourcePort (rows listing) con = con.srcPort) := by
  dsimp only
  rw [reconcile, get?_ports_first_cycle hone, sourcePort]
  cases (rows listing).find? fun r => r.conKey = con.flowId with
  | none => exact ⟨rfl, fun _ => rfl⟩
  | some row =>
      rw [Option.map_some, Option.bind_some]
      cases row.srcPort with
      | none => exact ⟨rfl, fun _ => rfl⟩
      | some port =>
          rw [Option.getD_some]
          dsimp only
          split
          · next hsame => exact ⟨by rw [hsame]; rfl, fun _ => hsame⟩
          · exact ⟨rfl, fun hno => absurd rfl hno⟩

end Snapshot

end FlowVerdict.Kernel

namespace FlowVerdict.Session

variable {s : Session} {con : Connection}

theorem get?_fileConnection (con : Connection) (s : Session) (id : FlowId) :
    (s.fileConnection con).connections.get? id =
      if id = (s.reconciled con).flowId then some (s.reconciled con)
      else s.connections.get? id := by
  rw [fileConnection_eq]
  exact Table.get?_insert _ _ _ _

/-- A connection that replaces another one is counted and logged. -/
theorem fileConnection_replaces
    (h : s.connections.get? (s.reconciled con).flowId ≠ none) :
    (s.fileConnection con).tally.connectionDups = s.tally.connectionDups + 1 ∧
      (s.fileConnection con).journal =
        s.journal ++ [.duplicateFlow connectionSource (s.reconciled con).flowId.text] := by
  have hcontains : s.connections.contains (s.reconciled con).flowId = true := by
    rwa [Table.contains_eq_isSome, Option.isSome_iff_ne_none]
  rw [fileConnection_eq, hcontains]
  exact ⟨rfl, rfl⟩

end FlowVerdict.Session

namespace FlowVerdict.Kernel.Snapshot

variable {listing : String} {con con' : Connection}

/-- After a first cycle, over a listing in which every row has names of its own, two connections of
different flows are of one flow exactly if they have one address, one destination and, by the
listing, one source port. That takes a corrected port; and it does not happen if both have the names
of plain rows. Filed one after the other, both are pending if their flows differ. Otherwise the
second replaces the first, and that is counted and logged. -/
theorem collide_iff (hone : OneToOne (rows listing)) (grace : Nat) (published : Publication)
    (stamp : Float) (hne : con.flowId ≠ con'.flowId) :
    let snapshot := (cycle { grace, published } listing stamp).1
    let first := snapshot.reconcile con
    let second := snapshot.reconcile con'
    (first.flowId = second.flowId ↔ con.srcIp = con'.srcIp ∧ con.destPort = con'.destPort ∧
      sourcePort (rows listing) con = sourcePort (rows listing) con') ∧
    (first.status ≠ some .changed → second.status ≠ some .changed →
      first.flowId ≠ second.flowId) ∧
    (∀ row row', Known listing con row → Known listing con' row' →
      first.flowId ≠ second.flowId) ∧
    ∀ s : Session, s.snapshot = some snapshot →
      let filed := s.fileConnection con
      let both := filed.fileConnection con'
      both.connections.get? second.flowId = some second ∧
      (first.flowId ≠ second.flowId → both.connections.get? first.flowId = some first) ∧
      (first.flowId = second.flowId →
        both.tally.connectionDups = filed.tally.connectionDups + 1 ∧
        both.journal =
          filed.journal ++ [.duplicateFlow connectionSource second.flowId.text]) := by
  intro snapshot first second
  obtain ⟨hfirst, hkept⟩ := reconcile_first_cycle hone grace published stamp con
  obtain ⟨hsecond, hkept'⟩ := reconcile_first_cycle hone grace published stamp con'
  have hcollide : first.flowId = second.flowId ↔ con.srcIp = con'.srcIp ∧
      con.destPort = con'.destPort ∧
        sourcePort (rows listing) con = sourcePort (rows listing) con' := by
    rw [hfirst, hsecond]
    constructor
    · exact FlowId.ofPorts_inj
    · rintro ⟨hsource, hdest, hport⟩
      rw [hsource, hdest, hport]
  refine ⟨hcollide, ?_, ?_, ?_⟩
  · intro hsame hsame' heq
    obtain ⟨hsource, hdest, hport⟩ := hcollide.mp heq
    rw [hkept hsame, hkept' hsame'] at hport
    exact hne (by rw [Connection.flowId, Connection.flowId, hsource, hdest, hport])
  · intro row row' hknown hknown' heq
    have hflows : row.synKey = row'.synKey := by
      rw [← hknown.ofPorts_sourcePort hone, ← hknown'.ofPorts_sourcePort hone, ← hfirst, ← hsecond]
      exact heq
    have hrows := List.inj_on_of_nodup_map hone.flows hknown.mem_rows hknown'.mem_rows hflows
    exact hne (by rw [hknown.named, hknown'.named, hrows])
  · intro s hsnapshot filed both
    have hcorrected : s.reconciled con = first := by rw [Session.reconciled, hsnapshot]
    have hcorrected' : filed.reconciled con' = second := by
      have hkept : filed.snapshot = s.snapshot := by
        rw [show filed = _ from s.fileConnection_eq con]
        rfl
      rw [Session.reconciled, hkept, hsnapshot]
    have hpending : ∀ id, filed.connections.get? id =
        if id = first.flowId then some first else s.connections.get? id := by
      intro id
      rw [Session.get?_fileConnection, hcorrected]
    have hboth : ∀ id, both.connections.get? id =
        if id = second.flowId then some second else filed.connections.get? id := by
      intro id
      rw [Session.get?_fileConnection, hcorrected']
    refine ⟨by rw [hboth, if_pos rfl], fun hapart => ?_, fun hsame => ?_⟩
    · rw [hboth, if_neg hapart, hpending, if_pos rfl]
    · rw [← hcorrected']
      apply Session.fileConnection_replaces
      rw [hcorrected', ← hsame, hpending, if_pos rfl]
      exact Option.some_ne_none first

theorem rows_exampleListing : rows exampleListing =
    [⟨100, ⟨"a_80+7000"⟩, ⟨"a_80+5002"⟩, some 5002⟩,
      ⟨100, ⟨"a_80+7001"⟩, ⟨"a_80+5001"⟩, some 5001⟩] := by decide +kernel

/-- Two connections whose ports both change stay apart. -/
theorem exampleListing_keeps_apart :
    ((cycle { grace := 5 } exampleListing 2.0).1.reconcile exampleConnection).flowId ≠
      ((cycle { grace := 5 } exampleListing 2.0).1.reconcile
        { exampleConnection with srcPort := 7001 }).flowId := by
  have hone : OneToOne (rows exampleListing) := by
    rw [rows_exampleListing]
    exact ⟨by decide, by decide⟩
  have hne : exampleConnection.flowId ≠
      Connection.flowId { exampleConnection with srcPort := 7001 } := by decide +kernel
  obtain ⟨hcollide, _⟩ := collide_iff hone 5 {} 2.0 hne
  rw [ne_eq, hcollide, rows_exampleListing]
  decide +kernel

/-- A row corrects a connection to the port under which another connection comes in that the listing
does not know. -/
theorem not_always_apart : ¬ ∀ (listing : String) (grace : Nat) (published : Publication)
    (stamp : Float) (con con' : Connection), OneToOne (rows listing) → con.flowId ≠ con'.flowId →
      ((cycle { grace, published } listing stamp).1.reconcile con).flowId ≠
        ((cycle { grace, published } listing stamp).1.reconcile con').flowId := by
  intro h
  have hone : OneToOne (rows (exampleRow "5001" "7000" "0")) := by
    rw [rows_exampleRow_first]
    exact ⟨by decide, by decide⟩
  refine h (exampleRow "5001" "7000" "0") 5 {} 2.0 exampleConnection
    { exampleConnection with srcPort := 5001 } hone (by decide +kernel) ?_
  rw [(reconcile_first_cycle hone 5 {} 2.0 _).1, (reconcile_first_cycle hone 5 {} 2.0 _).1,
    rows_exampleRow_first]
  decide +kernel

end FlowVerdict.Kernel.Snapshot
