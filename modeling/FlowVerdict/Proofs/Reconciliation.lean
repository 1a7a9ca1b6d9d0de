import FlowVerdict.Proofs.RowFields
import FlowVerdict.Proofs.Snapshot

/-!
# Correcting a connection by the latest listing

A row writes the port of its flow, and the rows below it in the same listing can take it away again:
one does if it moves a flow of an earlier cycle on from the same name. Unless that happens, a
connection of the name is corrected as the row says.
-/

namespace FlowVerdict.Kernel

namespace Snapshot

variable {s : Snapshot} {rs : List Row} {id name : FlowId}

/-- Rows of other names leave a flow under a name exactly if none of them is of that flow. -/
theorem conKey?_foldl_merge_iff (hother : ∀ r ∈ rs, r.conKey ≠ name) :
    (rs.foldl merge s).conKey? id = some name ↔
      s.conKey? id = some name ∧ ∀ r ∈ rs, r.synKey ≠ id := by
  induction rs generalizing s with
  | nil => simp
  | cons r rest ih =>
      have hhead : r.conKey ≠ name := hother r List.mem_cons_self
      rw [List.foldl_cons, ih fun q hmem => hother q (List.mem_cons_of_mem r hmem), conKey?_merge]
      by_cases heq : id = r.synKey
      · subst heq
        simp [hhead]
      · simp [heq, Ne.symm heq]

/-- Rows of other names leave a port alone if none of them is of a flow of that name. -/
theorem get?_ports_foldl_merge (hother : ∀ r ∈ rs, r.conKey ≠ name)
    (hkept : ∀ r ∈ rs, s.conKey? r.synKey ≠ some name) :
    (rs.foldl merge s).ports.get? name = s.ports.get? name := by
  induction rs generalizing s with
  | nil => rfl
  | cons r rest ih =>
      have hhead : name ≠ r.conKey := (hother r List.mem_cons_self).symm
      have hstays : s.conKey? r.synKey ≠ some name := hkept r List.mem_cons_self
      rw [List.foldl_cons, ih fun q hmem => hother q (List.mem_cons_of_mem r hmem)]
      · rw [get?_ports_merge, if_neg hhead, if_neg hstays]
      · intro q hmem hq
        rw [conKey?_merge] at hq
        split at hq
        · exact hhead (Option.some.inj hq).symm
        · exact hkept q (List.mem_cons_of_mem r hmem) hq

/-- Rows of other names take a port away if one of them is of a flow of that name. -/
theorem get?_ports_foldl_merge_eq_none (hother : ∀ r ∈ rs, r.conKey ≠ name)
    (hlost : ∃ r ∈ rs, s.conKey? r.synKey = some name) :
    (rs.foldl merge s).ports.get? name = none := by
  induction rs generalizing s with
  | nil =>
      obtain ⟨r, hmem, _⟩ := hlost
      cases hmem
  | cons r rest ih =>
      have hhead : name ≠ r.conKey := (hother r List.mem_cons_self).symm
      have hrest : ∀ q ∈ rest, q.conKey ≠ name := fun q hmem =>
        hother q (List.mem_cons_of_mem r hmem)
      rw [List.foldl_cons]
      by_cases hlater : ∃ q ∈ rest, (s.merge r).conKey? q.synKey = some name
      · exact ih hrest hlater
      have hhere : s.conKey? r.synKey = some name := by
        obtain ⟨q, hmem, hq⟩ := hlost
        rcases List.mem_cons.mp hmem with rfl | hmem
        · exact hq
        · have hnot := fun h => hlater ⟨q, hmem, h⟩
          rw [conKey?_merge] at hnot
          split at hnot
          · next heq => rwa [← heq]
          · exact absurd hq hnot
      have hstays : ∀ q ∈ rest, (s.merge r).conKey? q.synKey ≠ some name :=
        fun q hmem h => hlater ⟨q, hmem, h⟩
      rw [get?_ports_foldl_merge hrest hstays, get?_ports_merge, if_neg hhead, if_pos hhere]

/-- A flow of an earlier cycle goes by the name, was kept when the tables aged, and is listed below
and not above: the listing moves it on after the name was written. -/
def Displaced (s : Snapshot) (above below : List String) (name : FlowId) : Prop :=
  ∃ id, s.age.conKey? id = some name ∧ (∀ r ∈ above.filterMap Row.ofLine?, r.synKey ≠ id) ∧
    ∃ r ∈ below.filterMap Row.ofLine?, r.synKey = id

end Snapshot

def Directions.ofLine (line : String) : Directions :=
  .ofFields ((Text.words line).drop 4)

/-- A row that is taken up, of a client with one address on both sides of NAT, and with its ports
written plainly. -/
structure Row.Plain (row : Row) (line : String) (port : UInt16) : Prop where
  taken : Reading.ofText line = .tracked row
  address : (Directions.ofLine line).origin.src = (Directions.ofLine line).reply.dst
  port : (Directions.ofLine line).origin.sport = some (toString port)
  destPort : ∃ destPort : UInt16, (Directions.ofLine line).origin.dport = some (toString destPort)
  behind : ∃ behind : UInt16, (Directions.ofLine line).reply.dport = some (toString behind)

/-- No other line of a listing holds a row with either name of the flow. -/
def Row.Alone (row : Row) (others : List String) : Prop :=
  ∀ other ∈ others, ∀ r, Reading.ofText other = .tracked r →
    r.conKey ≠ row.conKey ∧ r.synKey ≠ row.synKey

theorem Row.Alone.of_mem {row r : Row} {lines : List String} (h : row.Alone lines)
    (hmem : r ∈ lines.filterMap Row.ofLine?) : r.conKey ≠ row.conKey ∧ r.synKey ≠ row.synKey := by
  obtain ⟨other, hother, hr⟩ := List.mem_filterMap.mp hmem
  exact h other hother r (Row.ofLine?_eq_some_iff.mp hr)

/-- A row that is taken up names its flow by its directions. -/
theorem Row.of_ofText {line : String} {row : Row} (h : Reading.ofText line = .tracked row) :
    ∃ source sport dport target behind,
      (Directions.ofLine line).origin.src = some source ∧
      (Directions.ofLine line).origin.sport = some sport ∧
      (Directions.ofLine line).origin.dport = some dport ∧
      (Directions.ofLine line).reply.dst = some target ∧
      (Directions.ofLine line).reply.dport = some behind ∧
      row.conKey = .ofParts target dport behind ∧ row.synKey = .ofParts source dport sport ∧
      row.srcPort = readPort? sport := by
  have hread : ∃ timeout, Row.ofDirections? timeout (.ofLine line) = some row := by
    simp only [Reading.ofText, Reading.ofWords] at h
    split at h
    · cases h
    split at h
    · cases h
    split at h
    · cases h
    split at h
    · next hread =>
        cases h
        exact ⟨_, hread⟩
    · cases h
  obtain ⟨timeout, hread⟩ := hread
  obtain ⟨source, sport, dport, target, behind, hsource, hsport, hdport, htarget, hbehind, rfl⟩ :=
    of_ofDirections? hread
  exact ⟨source, sport, dport, target, behind, hsource, hsport, hdport, htarget, hbehind, rfl, rfl,
    rfl⟩

/-- The names and the port of a plain row. -/
theorem Row.Plain.names {row : Row} {line : String} {port : UInt16} (h : row.Plain line port) :
    ∃ source destPort behind, row.conKey = .ofPorts source destPort behind ∧
      row.synKey = .ofPorts source destPort port ∧ row.srcPort = some port := by
  obtain ⟨destPort, hdest⟩ := h.destPort
  obtain ⟨behind, hbehind⟩ := h.behind
  obtain ⟨source, sport, dport, target, nat, hsource, hsport, hdport, htarget, hnat, hcon, hsyn,
    hport⟩ := of_ofText h.taken
  have haddress := h.address
  rw [hsource, htarget] at haddress
  rw [h.port] at hsport
  rw [hdest] at hdport
  rw [hbehind] at hnat
  cases haddress
  cases hsport
  cases hdport
  cases hnat
  exact ⟨source, destPort, behind, hcon, hsyn, hport.trans (readPort?_toString port)⟩

namespace Snapshot

variable {s : Snapshot} {row : Row} {line listing : String} {above below : List String}
  {port : UInt16} {con : Connection}

/-- What a listing says of the name of a row that is alone in it: the row's port, or nothing if the
name was displaced. -/
theorem get?_ports_cycle (hlines : listingLines listing = above ++ line :: below)
    (htaken : Reading.ofText line = .tracked row) (halone : row.Alone (above ++ below))
    (stamp : Float) :
    (¬ s.Displaced above below row.conKey →
        (s.cycle listing stamp).1.ports.get? row.conKey = some row.srcPort) ∧
      (s.Displaced above below row.conKey →
        (s.cycle listing stamp).1.ports.get? row.conKey = none) := by
  have hrows : rows listing =
      above.filterMap Row.ofLine? ++ row :: below.filterMap Row.ofLine? := by
    rw [rows, hlines, List.filterMap_append, List.filterMap_cons,
      Row.ofLine?_eq_some_iff.mpr htaken]
  have habove : ∀ r ∈ above.filterMap Row.ofLine?, r.conKey ≠ row.conKey := fun r hmem =>
    (halone.of_mem (by simp [hmem])).1
  have hbelow : ∀ r ∈ below.filterMap Row.ofLine?, r.conKey ≠ row.conKey := fun r hmem =>
    (halone.of_mem (by simp [hmem])).1
  have hflow : ∀ r ∈ below.filterMap Row.ofLine?, r.synKey ≠ row.synKey := fun r hmem =>
    (halone.of_mem (by simp [hmem])).2
  set before := (above.filterMap Row.ofLine?).foldl merge s.age with hbefore
  have hcycle : (s.cycle listing stamp).1.ports =
      ((below.filterMap Row.ofLine?).foldl merge (before.merge row)).ports := by
    rw [cycle_eq, hrows, List.foldl_append, List.foldl_cons]
    rfl
  have hwritten : (before.merge row).ports.get? row.conKey = some row.srcPort := by
    rw [get?_ports_merge, if_pos rfl]
  -- A row below takes the name away if its flow went by it before this row was taken up.
  have hlost : s.Displaced above below row.conKey ↔
      ∃ r ∈ below.filterMap Row.ofLine?,
        (before.merge row).conKey? r.synKey = some row.conKey := by
    constructor
    · rintro ⟨id, hname, hnone, r, hmem, rfl⟩
      refine ⟨r, hmem, ?_⟩
      rw [conKey?_merge, if_neg (hflow r hmem)]
      exact (conKey?_foldl_merge_iff habove).mpr ⟨hname, hnone⟩
    · rintro ⟨r, hmem, hname⟩
      rw [conKey?_merge, if_neg (hflow r hmem)] at hname
      obtain ⟨hname, hnone⟩ := (conKey?_foldl_merge_iff habove).mp hname
      exact ⟨r.synKey, hname, hnone, r, hmem, rfl⟩
  rw [hcycle, hlost]
  constructor
  · intro hkept
    rw [get?_ports_foldl_merge hbelow fun r hmem h => hkept ⟨r, hmem, h⟩, hwritten]
  · exact get?_ports_foldl_merge_eq_none hbelow

/-- After a cycle, a connection of a plain row that is alone in the listing gets the row's port
before NAT, with the status that says whether it changed, and is then of the flow that the header
stream knows; unless the listing displaced its name, when the snapshot does not know it. This is
whatever earlier cycles have left. -/
theorem reconcile_cycle (s : Snapshot) (stamp : Float)
    (hlines : listingLines listing = above ++ line :: below) (hplain : row.Plain line port)
    (halone : row.Alone (above ++ below)) (hcon : con.flowId = row.conKey) :
    (¬ s.Displaced above below row.conKey →
        (s.cycle listing stamp).1.reconcile con =
          { con with
            srcPort := port
            status := some (if port = con.srcPort then .found else .changed) } ∧
        ((s.cycle listing stamp).1.reconcile con).flowId = row.synKey) ∧
      (s.Displaced above below row.conKey →
        (s.cycle listing stamp).1.reconcile con = { con with status := some .absent }) := by
  obtain ⟨hkept, hlost⟩ := get?_ports_cycle (s := s) hlines hplain.taken halone stamp
  obtain ⟨source, destPort, behind, hconKey, hsynKey, hport⟩ := hplain.names
  rw [hconKey] at hcon
  obtain ⟨hsource, hdest, _⟩ := FlowId.ofPorts_inj hcon
  constructor
  · intro h
    have hreconcile : (s.cycle listing stamp).1.reconcile con =
        { con with
          srcPort := port
          status := some (if port = con.srcPort then .found else .changed) } := by
      unfold reconcile
      rw [hcon, ← hconKey, hkept h, hport]
      dsimp only
      split
      · next heq => rw [heq]
      · rfl
    refine ⟨hreconcile, ?_⟩
    rw [hreconcile, hsynKey, Connection.flowId, hsource, hdest]
  · intro h
    unfold reconcile
    rw [hcon, ← hconKey, hlost h]

/-- The second row's flow has a port that was the first flow's in the cycle before, and the first
flow has another one. -/
def exampleListing : String :=
  exampleRow "5002" "7000" "100" ++ "\n" ++ exampleRow "5001" "7001" "100"

def exampleConnection : Connection where
  timestamp := ""
  srcIp := "a"
  srcPort := 7000
  destIp := "b"
  destPort := 80
  proto := "TCP"
  eventType := ""
  unixtime := 2.0
  flow := none

/-- The listing corrects the connection in a fresh snapshot, and does not if the cycle before had
the port for the other flow. -/
theorem exampleListing_corrects_or_displaces :
    (cycle { grace := 5 } exampleListing 2.0).1.reconcile exampleConnection =
        { exampleConnection with srcPort := 5002, status := some .changed } ∧
      ((rounds { grace := 5 } [⟨.ok (exampleRow "5001" "7000" "0"), 1.0⟩]).cycle
          exampleListing 2.0).1.reconcile exampleConnection =
        { exampleConnection with status := some .absent } := by
  have hlines : listingLines exampleListing =
      [] ++ exampleRow "5002" "7000" "100" :: [exampleRow "5001" "7001" "100"] := by
    decide +kernel
  have htaken : Reading.ofText (exampleRow "5002" "7000" "100") =
      .tracked ⟨100, ⟨"a_80+7000"⟩, ⟨"a_80+5002"⟩, some 5002⟩ := by decide +kernel
  have hother : Reading.ofText (exampleRow "5001" "7001" "100") =
      .tracked ⟨100, ⟨"a_80+7001"⟩, ⟨"a_80+5001"⟩, some 5001⟩ := by decide +kernel
  have hfields : (Directions.ofLine (exampleRow "5002" "7000" "100")).origin.src =
        (Directions.ofLine (exampleRow "5002" "7000" "100")).reply.dst ∧
      (Directions.ofLine (exampleRow "5002" "7000" "100")).origin.sport =
        some (toString (5002 : UInt16)) ∧
      (Directions.ofLine (exampleRow "5002" "7000" "100")).origin.dport =
        some (toString (80 : UInt16)) ∧
      (Directions.ofLine (exampleRow "5002" "7000" "100")).reply.dport =
        some (toString (7000 : UInt16)) := by decide +kernel
  have hplain : Row.Plain ⟨100, ⟨"a_80+7000"⟩, ⟨"a_80+5002"⟩, some 5002⟩
      (exampleRow "5002" "7000" "100") 5002 :=
    ⟨htaken, hfields.1, hfields.2.1, ⟨80, hfields.2.2.1⟩, ⟨7000, hfields.2.2.2⟩⟩
  have halone : Row.Alone ⟨100, ⟨"a_80+7000"⟩, ⟨"a_80+5002"⟩, some 5002⟩
      ([] ++ [exampleRow "5001" "7001" "100"]) := by
    intro other hmem r hr
    rw [List.mem_singleton.mp hmem, hother] at hr
    cases hr
    decide
  have hcon : exampleConnection.flowId = ⟨"a_80+7000"⟩ := by decide +kernel
  constructor
  · refine ((reconcile_cycle _ 2.0 hlines hplain halone hcon).1 ?_).1
    rintro ⟨id, hnone, _⟩
    cases hnone
  · refine (reconcile_cycle _ 2.0 hlines hplain halone hcon).2
      ⟨⟨"a_80+5001"⟩, ?_, by simp, ⟨100, ⟨"a_80+7001"⟩, ⟨"a_80+5001"⟩, some 5001⟩, ?_, rfl⟩
    · rw [rounds_eq]
      simp only [List.flatMap_cons, List.flatMap_nil, Round.steps, rows_exampleRow_first]
      decide +kernel
    · rw [List.filterMap_cons, Row.ofLine?_eq_some_iff.mpr hother]
      exact List.mem_singleton_self _

end Snapshot

end FlowVerdict.Kernel
