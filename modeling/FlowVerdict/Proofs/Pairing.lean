import FlowVerdict.CommandLine.Reader
import FlowVerdict.Proofs.Office

/-!
# What becomes of a pair

A flow that is pending in both tables waits for the first pass that decides about it: a matching
pass, which joins the two records, or a scan pass that finds the SYN due, which reports the SYN as a
scan and leaves the connection behind. Nothing else moves the pair, unless a later record of the
flow replaces one of the two.
-/

namespace FlowVerdict.Office

variable {o : Office} {a : Action} {id : FlowId} {con : Connection} {syn : Syn}

def Reachable (o : Office) : Prop :=
  ∃ settings output actions, o = (start settings output).run actions

theorem Reachable.filed (h : o.Reachable) : o.books.Filed := by
  obtain ⟨settings, output, actions, rfl⟩ := h
  exact filed_run (filed_start settings output) actions

/-- Both records of a flow are pending, the SYN up to its mark. -/
structure Paired (o : Office) (id : FlowId) (con : Connection) (syn : Syn) : Prop where
  connection : o.books.connections.get? id = some con
  syn : ∃ kept, o.books.syns.get? id = some kept ∧ kept.unmarked = syn.unmarked

/-- Of all that was reported on the way to a later one, these departures concern the flow. -/
def Reported (o o' : Office) (id : FlowId) (left : List Departure) : Prop :=
  ∃ ds : List Departure, o'.books.events = o.books.events ++ ds.map Departure.event ∧
    ds.filter (Departure.concerns id) = left

/-- The pair left both tables in one accepted event. -/
structure LeavesJoined (o o' : Office) (id : FlowId) (con : Connection) (syn : Syn) : Prop where
  reported : ∃ kept guessed, kept.unmarked = syn.unmarked ∧
    o.Reported o' id [.joined con kept guessed]
  syn : o'.books.syns.get? id = none
  connection : o'.books.connections.get? id = none

/-- The SYN left alone, as a scan; its connection is still pending. -/
structure LeavesScanned (o o' : Office) (id : FlowId) (con : Connection) (syn : Syn) : Prop where
  reported : ∃ kept, kept.unmarked = syn.unmarked ∧ o.Reported o' id [.scanned kept]
  syn : o'.books.syns.get? id = none
  connection : o'.books.connections.get? id = some con

/-- Whether an operation files a record of a flow. -/
def replaces (o : Office) (id : FlowId) (a : Action) : Bool :=
  (o.arrival? a).any fun r => r.flowId = id

/-- Whether an operation decides about a flow that is pending in both tables. -/
def decides (o : Office) (id : FlowId) : Action → Bool
  | .matchPass _ => true
  | .scanPass now => o.session.isDue o.session.horizon? now id
  | _ => false

def quiet (o : Office) (id : FlowId) : List Action → Bool
  | [] => true
  | a :: rest => !o.replaces id a && !o.decides id a && (o.act a).quiet id rest

theorem Reported.refl (o : Office) (id : FlowId) : o.Reported o id [] :=
  ⟨[], by simp, rfl⟩

theorem Reported.trans {o' o'' : Office} {left more : List Departure} (h : o.Reported o' id left)
    (h' : o'.Reported o'' id more) : o.Reported o'' id (left ++ more) := by
  obtain ⟨ds, hds, rfl⟩ := h
  obtain ⟨es, hes, rfl⟩ := h'
  refine ⟨ds ++ es, ?_, List.filter_append _ _⟩
  rw [hes, hds, List.map_append, List.append_assoc]

theorem Reported.of_books_eq {o' : Office} (h : o'.books = o.books) : o.Reported o' id [] :=
  ⟨[], by simp [h], rfl⟩

theorem Reported.of_drains {o' : Office} {cs : List Books.Change}
    (h : o.books.Drains cs o'.books) :
    o.Reported o' id ((Books.departures cs).filter (Departure.concerns id)) :=
  ⟨Books.departures cs, h.events_eq, rfl⟩

/-- A record of another flow leaves the pair as it is. -/
theorem Paired.file {o' : Office} {r : Record} (h : o.Paired id con syn)
    (hbooks : o'.books = o.books.file r) (hr : r.flowId ≠ id) :
    o'.Paired id con syn ∧ o.Reported o' id [] := by
  obtain ⟨kept, hkept, hsame⟩ := h.syn
  have hconnection : (o.books.file r).connections.get? id = some con := by
    cases r with
    | syn _ => exact h.connection
    | connection other =>
        have hne : id ≠ other.flowId := fun heq => hr heq.symm
        rw [Books.file, Table.get?_insert, if_neg hne]
        exact h.connection
  have hsyn : (o.books.file r).syns.get? id = some kept := by
    cases r with
    | syn other =>
        have hne : id ≠ other.flowId := fun heq => hr heq.symm
        rw [Books.file, Table.get?_insert, if_neg hne]
        exact hkept
    | connection _ => exact hkept
  have hevents : (o.books.file r).events = o.books.events := by cases r <;> rfl
  rw [← hbooks] at hconnection hsyn hevents
  exact ⟨⟨hconnection, kept, hsyn, hsame⟩, [], by simp [hevents], rfl⟩

/-- A scan pass that spares the SYN leaves the pair as it is, the mark apart. -/
theorem Paired.scanPass {now : Float} (h : o.Paired id con syn) (hf : o.books.Filed)
    (hdue : o.decides id (.scanPass now) = false) :
    (o.act (.scanPass now)).Paired id con syn ∧ o.Reported (o.act (.scanPass now)) id [] := by
  obtain ⟨cs, hcs, hspares⟩ := (Session.scanPass_spares hf hdue).changes
  have hquiet := Session.not_concerns_of_spares hspares
  obtain ⟨before, hbefore, hsame⟩ := h.syn
  obtain ⟨kept, hkept, hkeeps, _⟩ := hcs.keeps_syn hbefore hquiet
  have hreported : o.Reported (o.act (.scanPass now)) id [] := by
    rw [← Session.filter_departures_eq_nil hquiet]
    exact .of_drains hcs
  exact ⟨⟨hcs.keeps_connection h.connection hquiet, kept, hkept, hkeeps.trans hsame⟩, hreported⟩

/-- One operation that neither replaces nor decides. -/
theorem Paired.act (h : o.Paired id con syn) (hf : o.books.Filed)
    (hreplaces : o.replaces id a = false) (hdecides : o.decides id a = false) :
    (o.act a).Paired id con syn ∧ o.Reported (o.act a) id [] := by
  cases harrival : o.arrival? a with
  | some r =>
      have hr : r.flowId ≠ id := by simpa [replaces, harrival] using hreplaces
      exact h.file (books_act_of_arrival harrival) hr
  | none =>
      by_cases hmatch : ∃ now, a = .matchPass now
      · obtain ⟨now, rfl⟩ := hmatch
        cases hdecides
      by_cases hscan : ∃ now, a = .scanPass now
      · obtain ⟨now, rfl⟩ := hscan
        exact h.scanPass hf hdecides
      have hbooks := books_act_of_no_pass harrival (not_exists.mp hmatch) (not_exists.mp hscan)
      refine ⟨⟨?_, ?_⟩, .of_books_eq hbooks⟩
      · rw [hbooks]
        exact h.connection
      · rw [hbooks]
        exact h.syn

/-- The pair stays, and nothing is reported of it, as long as the history is quiet. -/
theorem Paired.run {actions : List Action} (h : o.Paired id con syn) (hf : o.books.Filed)
    (hquiet : o.quiet id actions = true) :
    (o.run actions).Paired id con syn ∧ o.Reported (o.run actions) id [] := by
  induction actions generalizing o with
  | nil => exact ⟨h, .refl o id⟩
  | cons a rest ih =>
      simp only [quiet, Bool.and_eq_true, Bool.not_eq_true'] at hquiet
      obtain ⟨⟨hreplaces, hdecides⟩, hrest⟩ := hquiet
      obtain ⟨hhead, hreported⟩ := h.act hf hreplaces hdecides
      obtain ⟨htail, hmore⟩ := ih hhead (filed_act hf a) hrest
      exact ⟨htail, hreported.trans hmore⟩

theorem Paired.matchPass (h : o.Paired id con syn) (hf : o.books.Filed) (now : Float) :
    o.LeavesJoined (o.act (.matchPass now)) id con syn := by
  obtain ⟨kept, hkept, hsame⟩ := h.syn
  obtain ⟨cs, hcs, hleft, hnosyn, hnocon⟩ := Session.matchPass_joins hf h.connection hkept now
  have hreported : o.Reported (o.act (.matchPass now)) id _ := .of_drains hcs
  rw [hleft] at hreported
  exact ⟨⟨kept, _, hsame, hreported⟩, hnosyn, hnocon⟩

theorem Paired.scanned {now : Float} (h : o.Paired id con syn) (hf : o.books.Filed)
    (hdue : o.decides id (.scanPass now) = true) :
    o.LeavesScanned (o.act (.scanPass now)) id con syn := by
  obtain ⟨before, hbefore, hsame⟩ := h.syn
  obtain ⟨cs, kept, hcs, hkept, hleft, hnosyn⟩ := Session.scanPass_reports hf hbefore hdue
  have hreported : o.Reported (o.act (.scanPass now)) id _ := .of_drains hcs
  rw [hleft] at hreported
  refine ⟨⟨kept, hkept.trans hsame, hreported⟩, hnosyn, ?_⟩
  have hconnections : (o.act (.scanPass now)).books.connections = o.books.connections :=
    Session.scanPass_connections now o.session
  rw [hconnections]
  exact h.connection

theorem LeavesJoined.after {o' o'' : Office} (h : o'.LeavesJoined o'' id con syn)
    (hquiet : o.Reported o' id []) : o.LeavesJoined o'' id con syn := by
  obtain ⟨kept, guessed, hsame, hreported⟩ := h.reported
  exact ⟨⟨kept, guessed, hsame, hquiet.trans hreported⟩, h.syn, h.connection⟩

theorem LeavesScanned.after {o' o'' : Office} (h : o'.LeavesScanned o'' id con syn)
    (hquiet : o.Reported o' id []) : o.LeavesScanned o'' id con syn := by
  obtain ⟨kept, hsame, hreported⟩ := h.reported
  exact ⟨⟨kept, hsame, hquiet.trans hreported⟩, h.syn, h.connection⟩

theorem LeavesScanned.not_joined {o' : Office} (h : o.LeavesScanned o' id con syn) :
    ¬ o.LeavesJoined o' id con syn := by
  intro hjoined
  have hnone := hjoined.connection
  rw [h.connection] at hnone
  cases hnone

/-- A pair stays together while its history is quiet, and the first operation that decides about it
settles what becomes of it: it is joined if and only if that is a matching pass; a scan pass reports
the SYN as a scan, with the connection still pending. -/
theorem joined_iff_matched_first (ho : o.Reachable)
    (hcon : o.session.connections.get? id = some con) (hsyn : o.session.syns.get? id = some syn)
    (calm : List Action) (hcalm : o.quiet id calm = true) :
    (o.run calm).Paired id con syn ∧ o.Reported (o.run calm) id [] ∧
      ∀ last, (o.run calm).decides id last = true →
        (o.LeavesJoined (o.run (calm ++ [last])) id con syn ↔ ∃ now, last = .matchPass now) ∧
        (o.LeavesScanned (o.run (calm ++ [last])) id con syn ↔ ∃ now, last = .scanPass now) := by
  have hpaired : o.Paired id con syn := ⟨hcon, syn, hsyn, rfl⟩
  have hfiled := filed_run ho.filed calm
  obtain ⟨hstill, hnothing⟩ := hpaired.run ho.filed hcalm
  refine ⟨hstill, hnothing, fun last hlast => ?_⟩
  rw [run_append]
  change (o.LeavesJoined ((o.run calm).act last) id con syn ↔ _) ∧
    (o.LeavesScanned ((o.run calm).act last) id con syn ↔ _)
  cases last with
  | matchPass now =>
      have hjoined := (hstill.matchPass hfiled now).after hnothing
      refine ⟨iff_of_true hjoined ⟨now, rfl⟩, iff_of_false (fun h => h.not_joined hjoined) ?_⟩
      rintro ⟨_, ⟨⟩⟩
  | scanPass now =>
      have hscanned := (hstill.scanned hfiled hlast).after hnothing
      refine ⟨iff_of_false hscanned.not_joined ?_, iff_of_true hscanned ⟨now, rfl⟩⟩
      rintro ⟨_, ⟨⟩⟩
  | _ => cases hlast

def exampleHeader : Json.Bytes :=
  ("\x7b\"unixtime\":0,\"IP\":\x7b\"src_addr\":\"10.0.0.1\",\"dest_addr\":\"10.0.0.2\"\x7d," ++
    "\"TCP\":\x7b\"src_port\":40000,\"dest_port\":80\x7d\x7d").toUTF8.toList

def exampleConnection : Json.Bytes :=
  ("\x7b\"src_ip\":\"10.0.0.1\",\"src_port\":40000,\"dest_ip\":\"10.0.0.2\"," ++
    "\"dest_port\":80,\"unixtime\":0\x7d").toUTF8.toList

def examplePair : Office :=
  (start CommandLine.Choices.standard.resolve.settings fun _ => .written).run
    [.header exampleHeader, .connection exampleConnection]

/-- Five seconds later nothing is decided. A matching pass then joins the pair; a scan pass long
after tears it apart. -/
theorem examplePair_matched_or_scanned :
    ∃ con syn,
      examplePair.session.connections.get? ⟨"10.0.0.1_80+40000"⟩ = some con ∧
      examplePair.session.syns.get? ⟨"10.0.0.1_80+40000"⟩ = some syn ∧
      examplePair.LeavesJoined (examplePair.run [.scanPass 5.0, .matchPass 6.0])
        ⟨"10.0.0.1_80+40000"⟩ con syn ∧
      examplePair.LeavesScanned (examplePair.run [.scanPass 5.0, .scanPass 1000.0])
        ⟨"10.0.0.1_80+40000"⟩ con syn := by
  have hcon : (examplePair.session.connections.get? ⟨"10.0.0.1_80+40000"⟩).isSome := by
    decide +kernel
  have hsyn : (examplePair.session.syns.get? ⟨"10.0.0.1_80+40000"⟩).isSome := by decide +kernel
  obtain ⟨con, hcon⟩ := Option.isSome_iff_exists.mp hcon
  obtain ⟨syn, hsyn⟩ := Option.isSome_iff_exists.mp hsyn
  obtain ⟨_, _, hdecided⟩ := joined_iff_matched_first ⟨_, _, _, rfl⟩ hcon hsyn [.scanPass 5.0]
    (by decide +kernel)
  refine ⟨con, syn, hcon, hsyn, ?_, ?_⟩
  · exact (hdecided (.matchPass 6.0) (by decide +kernel)).1.mpr ⟨6.0, rfl⟩
  · exact (hdecided (.scanPass 1000.0) (by decide +kernel)).2.mpr ⟨1000.0, rfl⟩

end FlowVerdict.Office
