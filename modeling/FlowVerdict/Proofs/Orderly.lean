import FlowVerdict.Proofs.History
import FlowVerdict.Proofs.Index
import FlowVerdict.Proofs.Scanning

/-!
# Tables in order

In every session each record is filed under its own flow and the index of the SYNs is in step. So a
guess finds a SYN of the relaxed key that it was asked for, and all that leaves by a matching pass
leaves alone or in a pair with one key.
-/

namespace FlowVerdict

open Books (Change)

namespace Session

variable {s : Session}

theorem Visit.indexed {id : FlowId} {report : PassReport} {state : Session × PassReport}
    (h : Visit id s report state) (hindexed : s.syns.Indexed) : state.1.syns.Indexed := by
  cases h with
  | skipped | pending => exact hindexed
  | paired _ htake =>
      rw [emit_syns]
      exact hindexed.take? htake
  | guessed _ htake =>
      rw [emit_syns]
      exact (hindexed.takeRelaxed? htake).2
  | unanswered =>
      rw [emit_syns]
      exact hindexed

theorem Examination.indexed {horizon : Option Float} {now : Float} {id : FlowId} {emitted : Nat}
    {state : Session × Nat} (h : Examination horizon now id s emitted state)
    (hindexed : s.syns.Indexed) : state.1.syns.Indexed := by
  cases h with
  | skipped => exact hindexed
  | reported _ _ _ htake =>
      rw [emit_syns]
      exact hindexed.take? htake
  | marked => exact hindexed.modify _

end Session

/-- A change as the matcher makes it: a connection leaves alone, or is joined with a SYN of its
relaxed key; unless it was guessed, of its flow. -/
def Books.Change.Matches (c : Change) : Prop :=
  (∃ con, c = .departed (.unanswered con)) ∨
    ∃ con syn guessed, c = .departed (.joined con syn guessed) ∧
      con.flowId.relaxed = syn.flowId.relaxed ∧ (guessed ≠ some true → con.flowId = syn.flowId)

theorem Books.Change.Matches.departed {c : Change} (h : c.Matches) : ∃ d, c = .departed d := by
  rcases h with ⟨con, rfl⟩ | ⟨con, syn, guessed, rfl, _⟩
  · exact ⟨_, rfl⟩
  · exact ⟨_, rfl⟩

namespace Session

variable {s : Session} {state : Session × PassReport}

/-- The tables are as the matcher needs them: each record under its own flow, the index in step. -/
structure Orderly (s : Session) : Prop where
  filed : s.books.Filed
  indexed : s.syns.Indexed

theorem matchExact_matches (h : state.1.Orderly) (id : FlowId) :
    state.1.Drained Change.Matches (matchExact state id).1 ∧ (matchExact state id).1.Orderly := by
  have hdrained := matchExact_drained state id h.filed
  refine ⟨hdrained.mono ?_, hdrained.filed h.filed, (matchExact_visits _ _ id).indexed h.indexed⟩
  rintro c ⟨honly, con, syn, guessed, rfl⟩
  obtain ⟨hcon, hsyn⟩ := honly _ rfl
  have hflow : con.flowId = syn.flowId := (hcon con rfl).trans (hsyn syn rfl).symm
  exact .inr ⟨con, syn, guessed, rfl, congrArg FlowId.relaxed hflow, fun _ => hflow⟩

theorem decideRest_matches (h : state.1.Orderly) (now : Float) (id : FlowId) :
    state.1.Drained Change.Matches (decideRest now state id).1 ∧
      (decideRest now state id).1.Orderly := by
  have hfiled := (decideRest_drained now state id h.filed).filed h.filed
  rcases decideRest_cases now state id h.filed with
    hsame | ⟨con, d, hcon, hframe, hpermits, hbooks, ⟨rfl, hsyns⟩ | ⟨other, syn, rfl, htake⟩⟩
  · rw [hsame]
    exact ⟨.refl _ _, h⟩
  · refine ⟨drained_of_departed hframe hpermits hbooks (.inl ⟨con, rfl⟩), hfiled, ?_⟩
    rw [hsyns]
    exact h.indexed
  · obtain ⟨hkey, hindexed⟩ := h.indexed.takeRelaxed? htake
    have hget := (SynTable.of_takeRelaxed?_eq_some htake).1
    have hsyn : syn.flowId = other := h.filed.syns other syn hget
    refine ⟨drained_of_departed hframe hpermits hbooks ?_, hfiled, hindexed⟩
    exact .inr ⟨con, syn, some true, rfl, by rw [hcon, hsyn, hkey], fun hno => absurd rfl hno⟩

theorem matchPass_matches (h : s.Orderly) (now : Float) :
    s.Drained Change.Matches (s.matchPass now).2 ∧ (s.matchPass now).2.Orderly := by
  rw [matchPass_eq]
  obtain ⟨hexact, horderly⟩ := foldl_drained_keeps (P := fun _ => Change.Matches)
    (fun state id h => matchExact_matches h id) s.connections.byAge (s, {}) h
  obtain ⟨hrest, hend⟩ := foldl_drained_keeps (P := fun _ => Change.Matches)
    (fun state id h => decideRest_matches h now id)
    s.exactPass.1.connections.byAge _ horderly
  have hmatches : ∀ (ids : List FlowId) (c : Change), (∃ id ∈ ids, c.Matches) → c.Matches := by
    rintro ids c ⟨_, _, hc⟩
    exact hc
  exact ⟨(hexact.mono (hmatches _)).trans (hrest.mono (hmatches _)), hend⟩

/-- A scan pass leaves the tables in order. -/
theorem scanPass_orderly (h : s.Orderly) (now : Float) : (s.scanPass now).2.Orderly := by
  have hstep : ∀ (state : Session × Nat) (id : FlowId), state.1.Orderly →
      state.1.Drained (Change.Only id) (scanOne s.horizon? now state id).1 ∧
        (scanOne s.horizon? now state id).1.Orderly := by
    intro state id horderly
    have hdrained := scanOne_drained s.horizon? now state id horderly.filed
    exact ⟨hdrained, hdrained.filed horderly.filed,
      (scanOne_examines _ now _ _ id).indexed horderly.indexed⟩
  rw [scanPass_eq]
  exact (foldl_drained_keeps hstep s.syns.keys (s, 0) h).2

end Session

namespace Office

variable {o : Office} {e : Event} {a : Action}

theorem orderly_act (h : o.session.Orderly) (a : Action) : (o.act a).session.Orderly := by
  refine ⟨filed_act h.filed a, ?_⟩
  have hturn := o.turn a
  generalize o.act a = o', o.arrival? a = r, o.drops a = dropped at hturn ⊢
  cases hturn with
  | synFiled =>
      rw [Session.fileSyn_eq]
      exact h.indexed.insert
  | filed | settled =>
      rw [Session.fileConnection_eq]
      exact h.indexed
  | matchPass now => exact (Session.matchPass_matches h now).2.indexed
  | scanPass now => exact (Session.scanPass_orderly h now).indexed
  | _ => exact h.indexed

theorem orderly_run (h : o.session.Orderly) (actions : List Action) :
    (o.run actions).session.Orderly := by
  induction actions generalizing o with
  | nil => exact h
  | cons a rest ih => exact ih (orderly_act h a)

theorem orderly_start (settings : Settings) (output : Nat → Delivery) :
    (start settings output).session.Orderly :=
  ⟨filed_start settings output, SynTable.indexed_empty⟩

/-- What a matching pass reports is what one of its changes lets leave. -/
theorem Reports.of_matchPass {now : Float} (hreports : o.Reports e (.matchPass now))
    (h : o.session.Orderly) :
    ∃ cs d, o.books.Drains cs (o.act (.matchPass now)).books ∧ (∀ c ∈ cs, c.Matches) ∧
      d ∈ Books.departures cs ∧ e = d.event := by
  obtain ⟨cs, hcs, hmatches⟩ := (Session.matchPass_matches h now).1.changes
  have hevents : (o.act (.matchPass now)).books.events = _ := hcs.events_eq
  obtain ⟨d, hd, rfl⟩ := List.mem_map.mp ((reports_iff hevents).mp hreports)
  exact ⟨cs, d, hcs, hmatches, hd, rfl⟩

/-- What a scan pass reports is a pending SYN that is due. -/
theorem Reports.of_scanPass {now : Float} (hreports : o.Reports e (.scanPass now)) :
    ∃ id syn, o.session.syns.get? id = some syn ∧
      o.session.isDue o.session.horizon? now id = true ∧
      e = .synScan (Session.examined false syn) := by
  obtain ⟨new, hnew, hscans⟩ := o.session.events_scanPass now
  have hevents : (o.act (.scanPass now)).books.events = o.books.events ++ new := hnew
  exact hscans e ((reports_iff hevents).mp hreports)

end Office

end FlowVerdict
