import FlowVerdict.Proofs.Office
import Mathlib.Algebra.Order.Group.Multiset
import Mathlib.Data.Multiset.Filter
import Mathlib.Tactic.Abel

/-!
# Conservation of records

Every record that was filed is in one place: pending in its table, replaced by a later record of its
flow, or reported in one event. The law is first that of a single change of the books, and then that
of any history. Marks are left out of it, since a scan pass may set them while a SYN is pending.
-/

namespace FlowVerdict

/-- The record without what the scan passes noted on it. -/
def Record.unmarked : Record → Record
  | .syn s => .syn s.unmarked
  | .connection con => .connection con

def Record.tally (rs : List Record) : Multiset Record :=
  (rs.map Record.unmarked : List Record)

def Syn.tally (ss : List Syn) : Multiset Syn :=
  (ss.map Syn.unmarked : List Syn)

def Departure.records : Departure → List Record
  | joined con syn _ => [.connection con, .syn syn]
  | unanswered con => [.connection con]
  | scanned syn => [.syn syn]

/-- The SYNs that leave in events with a verdict. -/
def Departure.syns (verdict : Verdict) (ds : List Departure) : List Syn :=
  (ds.filter fun d => d.event.verdict = verdict).filterMap syn?

def Departure.connections (verdict : Verdict) (ds : List Departure) : List Connection :=
  (ds.filter fun d => d.event.verdict = verdict).filterMap connection?

namespace Record

theorem tally_append (rs qs : List Record) : tally (rs ++ qs) = tally rs + tally qs := by
  rw [tally, List.map_append, ← Multiset.coe_add]
  rfl

theorem tally_eq_of_perm {rs qs : List Record} (h : rs.Perm qs) : tally rs = tally qs :=
  Multiset.coe_eq_coe.mpr (h.map _)

@[simp] theorem tally_nil : tally [] = 0 :=
  rfl

end Record

open Record (tally tally_append tally_eq_of_perm tally_nil)

namespace Books

def records (b : Books) : List Record :=
  b.syns.values.map .syn ++ b.connections.values.map .connection

theorem tally_records (b : Books) :
    tally b.records =
      tally (b.syns.values.map .syn) + tally (b.connections.values.map .connection) :=
  tally_append _ _

/-- What leaves one table leaves the pending records. -/
theorem tally_erase {κ α : Type} [DecidableEq κ] {t : Table κ α} {k : κ} {v : α} (f : α → Record)
    (h : t.get? k = some v) :
    tally (t.values.map f) = tally ((t.erase k).values.map f) + tally [f v] := by
  rw [← tally_append]
  refine tally_eq_of_perm (((Table.values_perm_of_get? h).map f).trans ?_)
  exact (List.perm_append_singleton _ _).symm

/-- What enters one table enters the pending records, less what it replaces. -/
theorem tally_insert {κ α : Type} [DecidableEq κ] (t : Table κ α) (k : κ) (v : α)
    (f : α → Record) :
    tally (t.values.map f) + tally [f v] =
      tally ((t.insert k v).values.map f) + tally ((t.get? k).map f).toList := by
  rw [Table.values_insert, List.map_append, tally_append]
  cases h : t.get? k with
  | none => simp [Table.erase_eq_of_get?_eq_none h]
  | some old =>
      rw [tally_erase f h]
      simp only [List.map_cons, List.map_nil, Option.map_some, Option.toList_some]
      abel

/-- A change of the books loses no record and doubles none. -/
theorem tally_records_apply {b : Books} {c : Change} (h : b.Permits c) :
    tally b.records =
      tally (b.apply c).records + tally (c.departure?.toList.flatMap Departure.records) := by
  rcases c with ⟨id, live⟩ | ⟨con, syn, guessed⟩ | ⟨con⟩ | ⟨syn⟩
  · have hmarks : ((b.syns.modify id (Session.examined live)).values.map Record.syn).map
        Record.unmarked = (b.syns.values.map Record.syn).map Record.unmarked := by
      simp only [List.map_map]
      exact Table.map_values_modify _ _ fun _ => rfl
    have hsyns : tally ((b.syns.modify id (Session.examined live)).values.map .syn) =
        tally (b.syns.values.map .syn) := by
      rw [tally, tally, hmarks]
    simp [tally_records, apply, Change.departure?, hsyns]
  · have hsyn := tally_erase Record.syn (h.2 syn rfl)
    have hcon := tally_erase Record.connection (h.1 con rfl)
    have hpair : tally [Record.connection con, .syn syn] =
        tally [.connection con] + tally [.syn syn] := tally_append [_] [_]
    simp only [tally_records, apply, Change.departure?, Departure.records, Option.toList_some,
      List.flatMap_cons, List.flatMap_nil, List.append_nil, hsyn, hcon, hpair]
    abel
  · have hcon := tally_erase Record.connection (h.1 con rfl)
    simp only [tally_records, apply, Change.departure?, Departure.records, Option.toList_some,
      List.flatMap_cons, List.flatMap_nil, List.append_nil, hcon]
    abel
  · have hsyn := tally_erase Record.syn (h.2 syn rfl)
    simp only [tally_records, apply, Change.departure?, Departure.records, Option.toList_some,
      List.flatMap_cons, List.flatMap_nil, List.append_nil, hsyn]
    abel

theorem Drains.tally_records {b b' : Books} {cs : List Change} (h : b.Drains cs b') :
    tally b.records =
      tally b'.records + tally ((departures cs).flatMap Departure.records) := by
  induction h with
  | done => simp [departures]
  | @next b b' c rest permitted _ ih =>
      have hsplit : departures (c :: rest) = c.departure?.toList ++ departures rest :=
        departures_append [c] rest |>.trans (by cases c <;> rfl)
      rw [tally_records_apply permitted, ih, hsplit, List.flatMap_append, tally_append]
      abel

theorem tally_records_file (b : Books) (r : Record) :
    tally b.records + tally [r] = tally (b.file r).records + tally (b.displaced? r).toList := by
  cases r with
  | syn s =>
      have hsyn := tally_insert b.syns s.flowId s Record.syn
      rw [Books.tally_records, Books.tally_records, file, displaced?, add_right_comm, hsyn]
      exact add_right_comm _ _ _
  | connection con =>
      have hcon := tally_insert b.connections con.flowId con Record.connection
      rw [Books.tally_records, Books.tally_records, file, displaced?, add_assoc, hcon, add_assoc]

end Books

namespace Office

/-- The records that a history files, in their order. -/
def arrivals (o : Office) : List Action → List Record
  | [] => []
  | a :: rest => (o.arrival? a).toList ++ (o.act a).arrivals rest

/-- The records that a history replaces by later ones of their flow. -/
def displaced (o : Office) : List Action → List Record
  | [] => []
  | a :: rest => ((o.arrival? a).bind o.books.displaced?).toList ++ (o.act a).displaced rest

/-- One operation, as it moves records. -/
theorem act_conserves {o : Office} (hf : o.books.Filed) (a : Action) :
    ∃ ds : List Departure, (o.act a).books.events = o.books.events ++ ds.map Departure.event ∧
      tally o.books.records + tally (o.arrival? a).toList =
        tally (o.act a).books.records +
          tally ((o.arrival? a).bind o.books.displaced?).toList +
          tally (ds.flatMap Departure.records) := by
  cases h : o.arrival? a with
  | some r =>
      refine ⟨[], ?_, ?_⟩
      · rw [books_act_of_arrival h]
        cases r <;> simp [Books.file]
      · rw [books_act_of_arrival h]
        simpa using o.books.tally_records_file r
  | none =>
      obtain ⟨cs, hcs⟩ := drains_act_of_no_arrival h hf
      refine ⟨Books.departures cs, hcs.events_eq, ?_⟩
      simpa using hcs.tally_records

/-- A whole history, as it moves records. -/
theorem run_conserves {o : Office} (hf : o.books.Filed) (actions : List Action) :
    ∃ ds : List Departure,
      (o.run actions).books.events = o.books.events ++ ds.map Departure.event ∧
      tally o.books.records + tally (o.arrivals actions) =
        tally (o.run actions).books.records + tally (o.displaced actions) +
          tally (ds.flatMap Departure.records) := by
  induction actions generalizing o with
  | nil => exact ⟨[], by simp [run], by simp [run, arrivals, displaced]⟩
  | cons a rest ih =>
      obtain ⟨ds, hevents, hact⟩ := act_conserves hf a
      obtain ⟨es, hrest, hrun⟩ := ih (filed_act hf a)
      refine ⟨ds ++ es, ?_, ?_⟩
      · have hall : (o.run (a :: rest)).books.events = ((o.act a).run rest).books.events := rfl
        rw [hall, hrest, hevents, List.map_append, List.append_assoc]
      · have hall : o.run (a :: rest) = (o.act a).run rest := rfl
        rw [hall, arrivals, displaced, List.flatMap_append, tally_append, tally_append,
          tally_append, ← add_assoc, hact]
        calc
          _ = tally (o.act a).books.records + tally ((o.act a).arrivals rest) +
                tally ((o.arrival? a).bind o.books.displaced?).toList +
                tally (ds.flatMap Departure.records) := by abel
          _ = _ := by
            rw [hrun]
            abel

end Office

theorem filterMap_syn?_tally (rs : List Record) :
    (tally rs).filterMap Record.syn? = Syn.tally (rs.filterMap Record.syn?) := by
  rw [tally, Multiset.filterMap_coe, Syn.tally, List.filterMap_map, List.map_filterMap]
  congr 2
  funext r
  cases r <;> rfl

theorem filterMap_connection?_tally (rs : List Record) :
    (tally rs).filterMap Record.connection? =
      (rs.filterMap Record.connection? : List Connection) := by
  rw [tally, Multiset.filterMap_coe, List.filterMap_map]
  congr 2
  funext r
  cases r <;> rfl

namespace Departure

/-- A SYN leaves in an accepted event or in a scan event. -/
theorem tally_syns (ds : List Departure) :
    Syn.tally ((ds.flatMap records).filterMap Record.syn?) =
      Syn.tally (syns .accepted ds) + Syn.tally (syns .synScan ds) := by
  rw [Syn.tally, Syn.tally, Syn.tally, Multiset.coe_add, Multiset.coe_eq_coe, ← List.map_append]
  refine List.Perm.map _ ?_
  induction ds with
  | nil => exact .refl _
  | cons d rest ih =>
      rw [List.flatMap_cons, List.filterMap_append]
      cases d with
      | joined con syn guessed => exact ih.cons syn
      | unanswered con => exact ih
      | scanned syn => exact (ih.cons syn).trans List.perm_middle.symm

/-- A connection leaves in an accepted event or in one without SYN. -/
theorem tally_connections (ds : List Departure) :
    ((ds.flatMap records).filterMap Record.connection? : Multiset Connection) =
      (connections .accepted ds : Multiset Connection) +
        (connections .noSyn ds : List Connection) := by
  rw [Multiset.coe_add, Multiset.coe_eq_coe]
  induction ds with
  | nil => exact .refl _
  | cons d rest ih =>
      rw [List.flatMap_cons, List.filterMap_append]
      cases d with
      | joined con syn guessed => exact ih.cons con
      | unanswered con => exact (ih.cons con).trans List.perm_middle.symm
      | scanned syn => exact ih

end Departure

theorem Books.filterMap_syn?_records (b : Books) :
    b.records.filterMap Record.syn? = b.syns.values := by
  simp [Books.records, List.filterMap_append, List.filterMap_map, Function.comp_def, Record.syn?]

theorem Books.filterMap_connection?_records (b : Books) :
    b.records.filterMap Record.connection? = b.connections.values := by
  simp [Books.records, List.filterMap_append, List.filterMap_map, Function.comp_def,
    Record.connection?]

/-- Every SYN that a session filed is still pending, was replaced by a later SYN of its flow, or is
in one event, accepted or of a scan; every connection that it filed is still pending, was replaced,
or is in one event, accepted or without SYN. -/
theorem Office.records_conserved (settings : Settings) (output : Nat → Delivery)
    (actions : List Action) :
    ∃ departed : List Departure,
      ((start settings output).run actions).session.emissions.map Emission.event =
        departed.map Departure.event ∧
      Syn.tally (((start settings output).arrivals actions).filterMap Record.syn?) =
        Syn.tally ((start settings output).run actions).session.syns.records.values +
          Syn.tally (((start settings output).displaced actions).filterMap Record.syn?) +
          Syn.tally (Departure.syns .accepted departed) +
          Syn.tally (Departure.syns .synScan departed) ∧
      (((start settings output).arrivals actions).filterMap Record.connection? :
          Multiset Connection) =
        ((start settings output).run actions).session.connections.values +
          ((start settings output).displaced actions).filterMap Record.connection? +
          Departure.connections .accepted departed +
          Departure.connections .noSyn departed := by
  obtain ⟨departed, hevents, htally⟩ := run_conserves (filed_start settings output) actions
  have hnone : tally (start settings output).books.records = 0 := rfl
  rw [hnone, zero_add] at htally
  refine ⟨departed, hevents.trans (List.nil_append _), ?_, ?_⟩
  · have hsyns := congrArg (Multiset.filterMap Record.syn?) htally
    simp only [Multiset.filterMap_add, filterMap_syn?_tally, Departure.tally_syns,
      Books.filterMap_syn?_records] at hsyns
    rw [hsyns, add_assoc _ (Syn.tally (Departure.syns .accepted departed))]
    rfl
  · have hcons := congrArg (Multiset.filterMap Record.connection?) htally
    simp only [Multiset.filterMap_add, filterMap_connection?_tally, Departure.tally_connections,
      Books.filterMap_connection?_records] at hcons
    rw [hcons, add_assoc _ (Departure.connections .accepted departed : Multiset Connection)]
    rfl

end FlowVerdict
