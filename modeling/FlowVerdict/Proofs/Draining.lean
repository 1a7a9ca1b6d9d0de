import FlowVerdict.Proofs.Delay
import FlowVerdict.Proofs.Frame
import FlowVerdict.Proofs.Pairing

/-!
# The last scan pass of a graceful shutdown

A graceful shutdown leaves time for the age at which a SYN without connection is a scan. A SYN whose
flow was handed on to a backend has an age of its own, and what that adds is not waited for.
-/

namespace FlowVerdict.Office

variable {o o' : Office} {id : FlowId} {syn : Syn} {now : Float}

/-- The SYN left its table, and of its flow nothing was reported but the scan. -/
structure LeavesAsScan (o o' : Office) (id : FlowId) (syn : Syn) : Prop where
  reported : ∃ kept, kept.unmarked = syn.unmarked ∧ o.Reported o' id [.scanned kept]
  syn : o'.books.syns.get? id = none

/-- The SYN is still pending, and nothing was reported of its flow. -/
structure StaysPending (o o' : Office) (id : FlowId) (syn : Syn) : Prop where
  reported : o.Reported o' id []
  syn : ∃ kept, o'.books.syns.get? id = some kept ∧ kept.unmarked = syn.unmarked

theorem StaysPending.not_leavesAsScan (h : o.StaysPending o' id syn) :
    ¬ o.LeavesAsScan o' id syn := by
  intro hleaves
  obtain ⟨kept, hkept, _⟩ := h.syn
  rw [hleaves.syn] at hkept
  cases hkept

/-- A scan pass reports a pending SYN if it is due, and leaves it pending otherwise. -/
theorem scanPass_settles (hf : o.books.Filed) (hsyn : o.session.syns.get? id = some syn)
    (now : Float) :
    if o.session.isDue o.session.horizon? now id then
      o.LeavesAsScan (o.act (.scanPass now)) id syn
    else o.StaysPending (o.act (.scanPass now)) id syn := by
  split
  · next hdue =>
      obtain ⟨cs, kept, hcs, hkept, hleft, hnone⟩ := Session.scanPass_reports hf hsyn hdue
      have hreported : o.Reported (o.act (.scanPass now)) id _ := .of_drains hcs
      rw [hleft] at hreported
      exact ⟨⟨kept, hkept, hreported⟩, hnone⟩
  · next hdue =>
      obtain ⟨cs, hcs, hspares⟩ :=
        (Session.scanPass_spares hf (Bool.eq_false_of_not_eq_true hdue)).changes
      have hquiet := Session.not_concerns_of_spares hspares
      obtain ⟨kept, hkept, hsame, _⟩ := hcs.keeps_syn hsyn hquiet
      have hreported : o.Reported (o.act (.scanPass now)) id _ := .of_drains hcs
      rw [Session.filter_departures_eq_nil hquiet] at hreported
      exact ⟨hreported, kept, hkept, hsame⟩

theorem leavesAsScan_iff_isDue (hf : o.books.Filed) (hsyn : o.session.syns.get? id = some syn)
    (now : Float) :
    o.LeavesAsScan (o.act (.scanPass now)) id syn ↔
      o.session.isDue o.session.horizon? now id = true := by
  have hpass := scanPass_settles hf hsyn now
  constructor
  · intro hleaves
    by_contra hnot
    rw [if_neg hnot] at hpass
    exact hpass.not_leavesAsScan hleaves
  · intro hdue
    rwa [if_pos hdue] at hpass

theorem staysPending_iff_not_isDue (hf : o.books.Filed)
    (hsyn : o.session.syns.get? id = some syn) (now : Float) :
    o.StaysPending (o.act (.scanPass now)) id syn ↔
      ¬ o.session.isDue o.session.horizon? now id = true := by
  have hpass := scanPass_settles hf hsyn now
  constructor
  · intro hstays hdue
    rw [if_pos hdue] at hpass
    exact hstays.not_leavesAsScan hpass
  · intro hnot
    rwa [if_neg hnot] at hpass

/-- A scan pass leaves the table empty if every SYN in it is due. -/
theorem isEmpty_scanPass_iff (hf : o.books.Filed) (now : Float) :
    (o.act (.scanPass now)).session.syns.isEmpty = true ↔
      ∀ id syn, o.session.syns.get? id = some syn →
        o.session.isDue o.session.horizon? now id = true := by
  rw [SynTable.isEmpty, Table.isEmpty_iff]
  constructor
  · intro hempty id syn hsyn
    by_contra hnot
    obtain ⟨kept, hkept, _⟩ := ((staysPending_iff_not_isDue hf hsyn now).mpr hnot).syn
    exact absurd ((hempty id).symm.trans hkept) (by simp)
  · intro hall id
    cases hsyn : o.session.syns.get? id with
    | some syn => exact ((leavesAsScan_iff_isDue hf hsyn now).mpr (hall id syn hsyn)).syn
    | none =>
        obtain ⟨cs, hcs, _⟩ := (Session.scanPass_drained now o.session hf).changes
        exact hcs.get?_syns_eq_none hsyn

/-- A SYN for a backend that has not reached the age of its own. -/
def Lingers (settings : Settings) (now : Float) (syn : Syn) : Prop :=
  syn.tcp.isProxied = true ∧ now - syn.unixtime ≤ settings.synWaitProxy

instance (settings : Settings) (now : Float) (syn : Syn) : Decidable (Lingers settings now syn) :=
  inferInstanceAs (Decidable (_ ∧ _))

/-- Without sampling a SYN is due once it is past its age. -/
theorem isDue_untracked (h : o.session.snapshot = none) (hsyn : o.session.syns.get? id = some syn) :
    o.session.isDue o.session.horizon? now id = o.session.isExpired now syn := by
  simp [Session.isDue, Session.liveness?, hsyn, h]

/-- The last pass of a graceful shutdown, without sampling, comes after the delay. Then every SYN
that was pending when the shutdown began is reported as a scan, unless it is one for a backend that
has not reached the age of its own; each of these stays pending. -/
theorem leavesAsScan_iff_not_lingers {settings : Settings} (output : Nat → Delivery)
    (actions : List Action) {begun : Float} (htracking : settings.tracking = false)
    (htimeout : settings.synTimeout ≤ 1e12) (hbegun : 0.0 ≤ begun) (hlate : begun ≤ 1e12)
    (hpending : ∀ id syn, ((start settings output).run actions).session.syns.get? id = some syn →
      syn.unixtime ≤ begun) :
    ∃ delay, settings.gracefulDelay = .ok delay ∧
      let now := begun + delay.toSeconds
      let o := (start settings output).run actions
      let o' := o.act (.scanPass now)
      (∀ id syn, o.session.syns.get? id = some syn →
        (o.LeavesAsScan o' id syn ↔ ¬ Lingers settings now syn) ∧
        (o.StaysPending o' id syn ↔ Lingers settings now syn)) ∧
      (o'.session.syns.isEmpty = true ↔
        ∀ id syn, o.session.syns.get? id = some syn → ¬ Lingers settings now syn) := by
  obtain ⟨delay, hdelay, houtlasts⟩ := Settings.gracefulDelay_outlasts htimeout hbegun hlate
  refine ⟨delay, hdelay, ?_⟩
  intro now o o'
  have hfiled : o.books.Filed := filed_run (filed_start settings output) actions
  have hsettings : o.session.settings = settings :=
    settings_run (filed_start settings output) actions
  have hsnapshot : o.session.snapshot = none := by
    refine snapshot_run_eq_none (filed_start settings output) ?_ actions
    simp [start, Session.ofSettings, htracking]
  have hdue : ∀ id syn, o.session.syns.get? id = some syn →
      (o.session.isDue o.session.horizon? now id = true ↔ ¬ Lingers settings now syn) := by
    intro id syn hsyn
    -- the delay covers the timeout of every SYN, but not what a backend adds to it
    have hold : ¬ now - syn.unixtime ≤ settings.synTimeout :=
      houtlasts syn.unixtime (hpending id syn hsyn)
    rw [isDue_untracked hsnapshot hsyn, Session.isExpired, hsettings, Lingers]
    cases hproxied : syn.tcp.isProxied with
    | true => simp [Settings.scanAfter]
    | false => simp [Settings.scanAfter, hold]
  refine ⟨?_, ?_⟩
  · intro id syn hsyn
    rw [leavesAsScan_iff_isDue hfiled hsyn, staysPending_iff_not_isDue hfiled hsyn,
      hdue id syn hsyn, not_not]
    exact ⟨Iff.rfl, Iff.rfl⟩
  · rw [isEmpty_scanPass_iff hfiled]
    exact forall₂_congr fun id syn => forall_congr' fun hsyn => hdue id syn hsyn

def exampleDirectHeader : Json.Bytes :=
  ("\x7b\"unixtime\":0,\"IP\":\x7b\"src_addr\":\"10.0.0.1\",\"dest_addr\":\"10.0.0.2\"\x7d," ++
    "\"TCP\":\x7b\"src_port\":40001,\"dest_port\":80,\"proxied\":false\x7d\x7d").toUTF8.toList

/-- A session with the standard settings after a SYN for a backend and one that is for none. -/
def exampleClosing : Office :=
  (start CommandLine.Choices.standard.resolve.settings fun _ => .written).run
    [.header exampleHeader, .header exampleDirectHeader]

/-- A graceful shutdown that begins five seconds later comes to its last pass at 75.1 seconds: in
time for the one SYN, too early for the other, which has a hundred. -/
theorem exampleClosing_settled :
    CommandLine.Choices.standard.resolve.settings.gracefulDelay = .ok ⟨70100000000⟩ ∧
      ∃ proxied direct,
        exampleClosing.session.syns.get? ⟨"10.0.0.1_80+40000"⟩ = some proxied ∧
        exampleClosing.session.syns.get? ⟨"10.0.0.1_80+40001"⟩ = some direct ∧
        exampleClosing.StaysPending
          (exampleClosing.act (.scanPass (5.0 + (⟨70100000000⟩ : Span).toSeconds)))
          ⟨"10.0.0.1_80+40000"⟩ proxied ∧
        exampleClosing.LeavesAsScan
          (exampleClosing.act (.scanPass (5.0 + (⟨70100000000⟩ : Span).toSeconds)))
          ⟨"10.0.0.1_80+40001"⟩ direct := by
  have hdelay : CommandLine.Choices.standard.resolve.settings.gracefulDelay =
      .ok ⟨70100000000⟩ := by decide +kernel
  have hall : (exampleClosing.session.syns.records.values.all
      fun syn => decide (syn.unixtime ≤ 5.0)) = true := by decide +kernel
  have hpending : ∀ id syn, exampleClosing.session.syns.get? id = some syn →
      syn.unixtime ≤ 5.0 := fun id syn hsyn =>
    of_decide_eq_true (List.all_eq_true.mp hall syn (Table.mem_values_iff.mpr ⟨id, hsyn⟩))
  obtain ⟨delay, hsome, hsettled, _⟩ := leavesAsScan_iff_not_lingers (fun _ => .written)
    [.header exampleHeader, .header exampleDirectHeader] (by decide +kernel) (by decide +kernel)
    (by decide +kernel) (by decide +kernel) hpending
  cases hdelay.symm.trans hsome
  have hproxied : (exampleClosing.session.syns.get? ⟨"10.0.0.1_80+40000"⟩).any (fun syn =>
      decide (Lingers CommandLine.Choices.standard.resolve.settings
        (5.0 + (⟨70100000000⟩ : Span).toSeconds) syn)) = true := by decide +kernel
  have hdirect : (exampleClosing.session.syns.get? ⟨"10.0.0.1_80+40001"⟩).any (fun syn =>
      !decide (Lingers CommandLine.Choices.standard.resolve.settings
        (5.0 + (⟨70100000000⟩ : Span).toSeconds) syn)) = true := by decide +kernel
  obtain ⟨proxied, hproxied, hlingers⟩ := (Option.any_eq_true _ _).mp hproxied
  obtain ⟨direct, hdirect, hnot⟩ := (Option.any_eq_true _ _).mp hdirect
  refine ⟨hdelay, proxied, direct, hproxied, hdirect, ?_, ?_⟩
  · exact (hsettled _ proxied hproxied).2.mpr (of_decide_eq_true hlingers)
  · exact (hsettled _ direct hdirect).1.mpr (by simpa using hnot)

end FlowVerdict.Office
