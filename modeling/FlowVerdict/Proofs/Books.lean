import FlowVerdict.Proofs.Table
import FlowVerdict.Session.Basic
import FlowVerdict.Session.Scan

/-!
# The books of a session

The part of a session that the passes move: what is pending in the two tables, and the events
reported so far. A pass does no more than two kinds of changes to it, one at a time: it marks a
pending SYN, or it lets records leave in one event. All laws about passes follow from what a single
change does.
-/

namespace FlowVerdict

/-- The SYN without what the scan passes noted on it. -/
def Syn.unmarked (syn : Syn) : Syn :=
  { syn with status := none }

theorem Syn.unmarked_eq_iff {syn other : Syn} :
    syn.unmarked = other.unmarked ↔
      syn.timestamp = other.timestamp ∧ syn.unixtime = other.unixtime ∧ syn.ip = other.ip ∧
        syn.tcp = other.tcp := by
  simp [unmarked]

@[simp] theorem Session.flowId_examined (live : Bool) (syn : Syn) :
    (examined live syn).flowId = syn.flowId :=
  rfl

/-- How records leave their tables: a connection joined with a SYN, a connection without SYN, or a
SYN without connection. -/
inductive Departure where
  | joined (con : Connection) (syn : Syn) (guessed : Option Bool)
  | unanswered (con : Connection)
  | scanned (syn : Syn)

namespace Departure

def event : Departure → Event
  | joined con syn guessed => .accepted con syn guessed
  | unanswered con => .noSyn con
  | scanned syn => .synScan syn

def connection? : Departure → Option Connection
  | joined con _ _ => some con
  | unanswered con => some con
  | scanned _ => none

def syn? : Departure → Option Syn
  | joined _ syn _ => some syn
  | unanswered _ => none
  | scanned syn => some syn

def concerns (id : FlowId) (d : Departure) : Bool :=
  d.connection?.any (fun con => con.flowId = id) || d.syn?.any (fun syn => syn.flowId = id)

end Departure

/-- What is pending, and what was reported. -/
structure Books where
  syns : Table FlowId Syn
  connections : ConnectionTable
  events : List Event

def Session.books (s : Session) : Books where
  syns := s.syns.records
  connections := s.connections
  events := s.emissions.map Emission.event

namespace Books

/-- One change that a pass makes. -/
inductive Change where
  /-- A pending SYN was examined, and its flow was alive or not. -/
  | examined (id : FlowId) (live : Bool)
  | departed (d : Departure)

def Change.departure? : Change → Option Departure
  | examined _ _ => none
  | departed d => some d

def apply (b : Books) : Change → Books
  | .examined id live => { b with syns := b.syns.modify id (Session.examined live) }
  | .departed (.joined con syn guessed) =>
      { syns := b.syns.erase syn.flowId
        connections := b.connections.erase con.flowId
        events := b.events ++ [.accepted con syn guessed] }
  | .departed (.unanswered con) =>
      { b with
        connections := b.connections.erase con.flowId
        events := b.events ++ [.noSyn con] }
  | .departed (.scanned syn) =>
      { b with
        syns := b.syns.erase syn.flowId
        events := b.events ++ [.synScan syn] }

/-- What leaves was pending under its own flow. -/
def Permits (b : Books) : Change → Prop
  | .examined _ _ => True
  | .departed d =>
      (∀ con, d.connection? = some con → b.connections.get? con.flowId = some con) ∧
        ∀ syn, d.syn? = some syn → b.syns.get? syn.flowId = some syn

/-- The books after a sequence of changes, each of them permitted when it was made. -/
inductive Drains : Books → List Change → Books → Prop where
  | done (b : Books) : Drains b [] b
  | next {b b' : Books} {c : Change} {rest : List Change} (permitted : b.Permits c)
      (tail : Drains (b.apply c) rest b') : Drains b (c :: rest) b'

/-- Every record is filed under its own flow. -/
structure Filed (b : Books) : Prop where
  syns : ∀ id syn, b.syns.get? id = some syn → syn.flowId = id
  connections : ∀ id con, b.connections.get? id = some con → con.flowId = id

theorem Drains.append {b b' b'' : Books} {cs ds : List Change} (hcs : b.Drains cs b')
    (hds : b'.Drains ds b'') : b.Drains (cs ++ ds) b'' := by
  induction hcs with
  | done => exact hds
  | next permitted _ ih => exact .next permitted (ih hds)

theorem Drains.single {b : Books} {c : Change} (h : b.Permits c) : b.Drains [c] (b.apply c) :=
  .next h (.done _)

theorem get?_syns_apply_examined (b : Books) (id id' : FlowId) (live : Bool) :
    (b.apply (.examined id live)).syns.get? id' =
      if id' = id then (b.syns.get? id).map (Session.examined live) else b.syns.get? id' :=
  b.syns.get?_modify id id' _

theorem events_apply (b : Books) (c : Change) :
    (b.apply c).events = b.events ++ (c.departure?.toList.map Departure.event) := by
  rcases c with ⟨id, live⟩ | ⟨con, syn, guessed⟩ | ⟨con⟩ | ⟨syn⟩ <;>
    simp [apply, Change.departure?, Departure.event]

/-- A departure erases the flow of its connection and of its SYN, and nothing else. -/
theorem get?_connections_apply_departed (b : Books) (d : Departure) (id : FlowId) :
    (b.apply (.departed d)).connections.get? id =
      if d.connection?.any (fun con => con.flowId = id) then none else b.connections.get? id := by
  cases d <;> simp [apply, Departure.connection?, Table.get?_erase, eq_comm]

theorem get?_syns_apply_departed (b : Books) (d : Departure) (id : FlowId) :
    (b.apply (.departed d)).syns.get? id =
      if d.syn?.any (fun syn => syn.flowId = id) then none else b.syns.get? id := by
  cases d <;> simp [apply, Departure.syn?, Table.get?_erase, eq_comm]

theorem get?_connections_of_apply {b : Books} {c : Change} {id : FlowId} {con : Connection}
    (h : (b.apply c).connections.get? id = some con) : b.connections.get? id = some con := by
  cases c with
  | examined => exact h
  | departed d =>
      rw [get?_connections_apply_departed] at h
      split at h
      · cases h
      · exact h

theorem get?_syns_of_apply_departed {b : Books} {d : Departure} {id : FlowId} {syn : Syn}
    (h : (b.apply (.departed d)).syns.get? id = some syn) : b.syns.get? id = some syn := by
  rw [get?_syns_apply_departed] at h
  split at h
  · cases h
  · exact h

theorem Filed.apply {b : Books} (h : b.Filed) (c : Change) : (b.apply c).Filed := by
  cases c with
  | examined id live =>
      refine ⟨fun id' syn hget => ?_, h.connections⟩
      rw [get?_syns_apply_examined] at hget
      split at hget
      · next heq =>
          obtain ⟨before, hbefore, rfl⟩ := Option.map_eq_some_iff.mp hget
          rw [heq]
          exact h.syns id before hbefore
      · exact h.syns id' syn hget
  | departed d =>
      constructor
      · intro id syn hget
        rw [get?_syns_apply_departed] at hget
        split at hget
        · cases hget
        · exact h.syns id syn hget
      · intro id con hget
        rw [get?_connections_apply_departed] at hget
        split at hget
        · cases hget
        · exact h.connections id con hget

def departures (cs : List Change) : List Departure :=
  cs.filterMap Change.departure?

theorem departures_append (cs ds : List Change) :
    departures (cs ++ ds) = departures cs ++ departures ds :=
  List.filterMap_append

theorem mem_departures_iff {cs : List Change} {d : Departure} :
    d ∈ departures cs ↔ .departed d ∈ cs := by
  simp only [departures, List.mem_filterMap]
  constructor
  · rintro ⟨c, hmem, heq⟩
    cases c with
    | examined => cases heq
    | departed =>
        cases heq
        exact hmem
  · intro hmem
    exact ⟨_, hmem, rfl⟩

theorem Filed.drains {b b' : Books} {cs : List Change} (h : b.Filed) (hd : b.Drains cs b') :
    b'.Filed := by
  induction hd with
  | done => exact h
  | next _ _ ih => exact ih (h.apply _)

theorem Drains.events_eq {b b' : Books} {cs : List Change} (h : b.Drains cs b') :
    b'.events = b.events ++ (departures cs).map Departure.event := by
  induction h with
  | done => simp [departures]
  | @next _ _ c rest _ _ ih =>
      rw [ih, events_apply, List.append_assoc, ← List.map_append]
      cases c <;> rfl

/-- A pass adds no SYN. -/
theorem Drains.get?_syns_eq_none {b b' : Books} {cs : List Change} {id : FlowId}
    (h : b.Drains cs b') (hsyn : b.syns.get? id = none) : b'.syns.get? id = none := by
  induction h with
  | done => exact hsyn
  | @next b _ c _ _ _ ih =>
      refine ih ?_
      cases c with
      | examined id' live =>
          rw [get?_syns_apply_examined]
          split
          · next heq => rw [← heq, hsyn, Option.map_none]
          · exact hsyn
      | departed d => rw [get?_syns_apply_departed, hsyn, ite_self]

/-- What is pending after a pass was pending before it. -/
theorem Drains.connection_before {b b' : Books} {cs : List Change} {id : FlowId}
    {con : Connection} (h : b.Drains cs b') (hget : b'.connections.get? id = some con) :
    b.connections.get? id = some con := by
  induction h with
  | done => exact hget
  | next _ _ ih => exact get?_connections_of_apply (ih hget)

/-- A pass adds no connection. -/
theorem Drains.get?_connections_eq_none {b b' : Books} {cs : List Change} {id : FlowId}
    (h : b.Drains cs b') (hcon : b.connections.get? id = none) :
    b'.connections.get? id = none := by
  cases hget : b'.connections.get? id with
  | none => rfl
  | some con =>
      rw [h.connection_before hget] at hcon
      cases hcon

theorem Drains.syn_before {b b' : Books} {cs : List Change} {id : FlowId} {syn : Syn}
    (h : b.Drains cs b') (hdeparted : ∀ c ∈ cs, ∃ d, c = .departed d)
    (hget : b'.syns.get? id = some syn) : b.syns.get? id = some syn := by
  induction h with
  | done => exact hget
  | next _ _ ih =>
      obtain ⟨d, rfl⟩ := hdeparted _ List.mem_cons_self
      apply get?_syns_of_apply_departed
      exact ih (fun c hmem => hdeparted c (List.mem_cons_of_mem _ hmem)) hget

/-- A connection that leaves was pending when the pass began. -/
theorem Drains.connection_pending {b b' : Books} {cs : List Change} {d : Departure}
    {con : Connection} (h : b.Drains cs b') (hd : d ∈ departures cs)
    (hcon : d.connection? = some con) : b.connections.get? con.flowId = some con := by
  induction h with
  | done => cases hd
  | next permitted _ ih =>
      rcases List.mem_cons.mp (mem_departures_iff.mp hd) with rfl | hmem
      · exact permitted.1 con hcon
      · exact get?_connections_of_apply (ih (mem_departures_iff.mpr hmem))

/-- A SYN that leaves in a stretch without examinations was pending when it began. -/
theorem Drains.syn_pending {b b' : Books} {cs : List Change} {d : Departure} {syn : Syn}
    (h : b.Drains cs b') (hdeparted : ∀ c ∈ cs, ∃ d, c = .departed d) (hd : d ∈ departures cs)
    (hsyn : d.syn? = some syn) : b.syns.get? syn.flowId = some syn := by
  induction h with
  | done => cases hd
  | next permitted _ ih =>
      rcases List.mem_cons.mp (mem_departures_iff.mp hd) with rfl | hmem
      · exact permitted.2 syn hsyn
      · obtain ⟨first, rfl⟩ := hdeparted _ List.mem_cons_self
        apply get?_syns_of_apply_departed
        exact ih (fun c hc => hdeparted c (List.mem_cons_of_mem _ hc))
          (mem_departures_iff.mpr hmem)

theorem Permits.not_concerns {b : Books} {d : Departure} {id : FlowId}
    (h : b.Permits (.departed d)) (hsyn : b.syns.get? id = none)
    (hcon : b.connections.get? id = none) : d.concerns id = false := by
  simp only [Departure.concerns, Bool.or_eq_false_iff]
  constructor
  · cases hc : d.connection? with
    | none => rfl
    | some con =>
        have hget := h.1 con hc
        simp only [Option.any_some, decide_eq_false_iff_not]
        rintro rfl
        simp [hcon] at hget
  · cases hs : d.syn? with
    | none => rfl
    | some syn =>
        have hget := h.2 syn hs
        simp only [Option.any_some, decide_eq_false_iff_not]
        rintro rfl
        simp [hsyn] at hget

/-- Nothing leaves of a flow that is not pending. -/
theorem Drains.not_concerns {b b' : Books} {cs : List Change} {id : FlowId} (h : b.Drains cs b')
    (hsyn : b.syns.get? id = none) (hcon : b.connections.get? id = none) :
    ∀ d ∈ departures cs, d.concerns id = false := by
  induction h with
  | done => simp [departures]
  | @next b _ c rest permitted _ ih =>
      have hone : b.Drains [c] (b.apply c) := .single permitted
      have hrest := ih (hone.get?_syns_eq_none hsyn) (hone.get?_connections_eq_none hcon)
      intro d hmem
      rcases List.mem_cons.mp (mem_departures_iff.mp hmem) with rfl | hmem
      · exact permitted.not_concerns hsyn hcon
      · exact hrest d (mem_departures_iff.mpr hmem)

/-- A SYN stays pending while no departure concerns its flow; only its mark may change, and that
only when it is examined. -/
theorem Drains.keeps_syn {b b' : Books} {cs : List Change} {id : FlowId} {syn : Syn}
    (h : b.Drains cs b') (hget : b.syns.get? id = some syn)
    (hspare : ∀ d ∈ departures cs, d.concerns id = false) :
    ∃ kept, b'.syns.get? id = some kept ∧ kept.unmarked = syn.unmarked ∧
      ((∀ live, .examined id live ∉ cs) → kept = syn) := by
  induction h generalizing syn with
  | done => exact ⟨syn, hget, rfl, fun _ => rfl⟩
  | @next b b' c rest _ _ ih =>
      have hrest : ∀ d ∈ departures rest, d.concerns id = false := fun d hmem =>
        hspare d (mem_departures_iff.mpr (List.mem_cons_of_mem c (mem_departures_iff.mp hmem)))
      cases c with
      | examined id' live =>
          by_cases heq : id = id'
          · subst heq
            have hmarked : (b.apply (.examined id live)).syns.get? id =
                some (Session.examined live syn) := by
              rw [get?_syns_apply_examined, if_pos rfl, hget, Option.map_some]
            obtain ⟨kept, hkept, hsame, _⟩ := ih hmarked hrest
            exact ⟨kept, hkept, hsame, fun hnone => absurd List.mem_cons_self (hnone live)⟩
          · obtain ⟨kept, hkept, hsame, hequal⟩ :=
              ih (by rw [get?_syns_apply_examined, if_neg heq, hget]) hrest
            exact ⟨kept, hkept, hsame, fun hnone =>
              hequal fun live' hmem => hnone live' (List.mem_cons_of_mem _ hmem)⟩
      | departed d =>
          have hother := hspare d (mem_departures_iff.mpr List.mem_cons_self)
          simp only [Departure.concerns, Bool.or_eq_false_iff] at hother
          have hnext : (b.apply (.departed d)).syns.get? id = some syn := by
            rw [get?_syns_apply_departed, hother.2, hget]
            rfl
          obtain ⟨kept, hkept, hsame, hequal⟩ := ih hnext hrest
          exact ⟨kept, hkept, hsame, fun hnone =>
            hequal fun live hmem => hnone live (List.mem_cons_of_mem _ hmem)⟩

/-- A connection stays pending as it is while no departure concerns its flow. -/
theorem Drains.keeps_connection {b b' : Books} {cs : List Change} {id : FlowId}
    {con : Connection} (h : b.Drains cs b') (hget : b.connections.get? id = some con)
    (hspare : ∀ d ∈ departures cs, d.concerns id = false) :
    b'.connections.get? id = some con := by
  induction h with
  | done => exact hget
  | @next b b' c rest _ _ ih =>
      have hrest : ∀ d ∈ departures rest, d.concerns id = false := fun d hmem =>
        hspare d (mem_departures_iff.mpr (List.mem_cons_of_mem c (mem_departures_iff.mp hmem)))
      cases c with
      | examined => exact ih hget hrest
      | departed d =>
          have hother := hspare d (mem_departures_iff.mpr List.mem_cons_self)
          simp only [Departure.concerns, Bool.or_eq_false_iff] at hother
          refine ih ?_ hrest
          rw [get?_connections_apply_departed, hother.1, hget]
          rfl

end Books

end FlowVerdict
