import FlowVerdict.Proofs.Freshness
import FlowVerdict.Proofs.Scanning

/-!
# The snapshot that a scan rests on

A pass reads the stamp to rely on first, and looks each flow up later. What is published in between
is newer, and a SYN that comes in between is either covered by the stamp or passed over.
-/

namespace FlowVerdict

/-- Only a pass that walks over the flows reports anything: the SYN of the next flow, if it is
due. -/
theorem Patrol.events_step (c : Patrol) (s : Session) :
    (c.step s).2.books.events = s.books.events ∨
      ∃ now horizon emitted id ids syn, c = .walking now horizon emitted (id :: ids) ∧
        s.syns.get? id = some syn ∧ s.isDue horizon now id = true ∧
        (c.step s).2.books.events = s.books.events ++ [.synScan (Session.examined false syn)] := by
  cases c with
  | idle | noted | cleared | relying => exact .inl rfl
  | waiting now wait =>
      left
      simp only [Patrol.step]
      split
      · rfl
      · split <;> rfl
  | walking now horizon emitted ids =>
      cases ids with
      | nil => exact .inl rfl
      | cons id rest =>
          rcases (Session.scanOne_examines horizon now s emitted id).events with
            hsame | ⟨syn, hsyn, hdue, hnew⟩
          · exact .inl hsame
          · exact .inr ⟨now, horizon, emitted, id, rest, syn, rfl, hsyn, hdue, hnew⟩

namespace Workshop

variable {w w' : Workshop} {m : Move} {settings : Settings} {output : Nat → Delivery}
  {moves : List Move}

/-- The scan detector is about to examine the SYN of a flow by a published snapshot that covers a
SYN and does not know its flow. -/
def Condemns (w : Workshop) (syn : Syn) : Prop :=
  ∃ now horizon emitted ids snapshot,
    w.patrol = .walking now horizon emitted (syn.flowId :: ids) ∧
    w.session.snapshot = some snapshot ∧ snapshot.published.sequence ≠ 0 ∧
    syn.unixtime ≤ snapshot.published.stamp ∧ snapshot.isLive syn.flowId = false

/-- A pass examines the SYN of a flow as due only by a snapshot that covers it. -/
theorem Sound.condemns (h : w.Sound) {now : Float} {horizon : Option Float} {emitted : Nat}
    {id : FlowId} {ids : List FlowId} {syn : Syn}
    (hwalking : w.patrol = .walking now horizon emitted (id :: ids))
    (hsyn : w.session.syns.get? id = some syn)
    (hdue : w.session.isDue horizon now id = true) (hpos : 0.0 < syn.unixtime) :
    w.Condemns syn := by
  obtain ⟨snapshot, hsnapshot⟩ := h.sampled
  have hpublished : w.session.published = snapshot.published := by
    simp [Session.published, hsnapshot]
  have hid : syn.flowId = id := h.filed.syns id syn hsyn
  have hknows := h.patrol
  rw [hwalking, hpublished] at hknows
  obtain ⟨q, hlead, hgenuine, rfl⟩ := hknows
  simp only [Session.isDue, hsyn, Option.any_some, Session.liveness?, hsnapshot, Bool.and_eq_true,
    beq_iff_eq] at hdue
  obtain ⟨hlive, _⟩ := hdue
  split at hlive
  · cases hlive
  · next hcovered =>
      obtain ⟨hnext, hle⟩ := hgenuine.covers hlead hpos (hgenuine.le_stamp hpos hcovered)
      refine ⟨now, some q.stamp, emitted, ids, snapshot, hid ▸ hwalking, hsnapshot, hnext, hle, ?_⟩
      rw [hid]
      exact Option.some.inj hlive

/-- What a move may report: no scan, or one pending SYN as a scan by a step of the scan detector. -/
def MayReport (w : Workshop) (m : Move) (new : List Event) : Prop :=
  (∀ e ∈ new, e.verdict ≠ .synScan) ∨
    ∃ syn, m = .patrol ∧ w.session.syns.get? syn.flowId = some syn ∧
      new = [.synScan (Session.examined false syn)] ∧ (0.0 < syn.unixtime → w.Condemns syn)

/-- The operations beside the steps report no scans. -/
theorem events_act_aside {o : Office} {a : Action} (hf : o.books.Filed)
    (haside : a.isAside = true) :
    ∃ new, (o.act a).books.events = o.books.events ++ new ∧ ∀ e ∈ new, e.verdict ≠ .synScan := by
  have hscan : ∀ now, a ≠ .scanPass now := by
    rintro now rfl
    cases haside
  by_cases hmatch : ∃ now, a = .matchPass now
  · obtain ⟨now, rfl⟩ := hmatch
    obtain ⟨cs, hcs, hno⟩ := (Session.matchPass_drained now o.session hf).changes
    refine ⟨_, hcs.events_eq, fun e hmem => ?_⟩
    obtain ⟨d, hd, rfl⟩ := List.mem_map.mp hmem
    cases d with
    | joined con syn guessed => simp [Departure.event, Event.accepted]
    | unanswered con => simp [Departure.event, Event.noSyn]
    | scanned syn => exact absurd ⟨syn, rfl⟩ (hno _ (Books.mem_departures_iff.mp hd))
  · refine ⟨[], ?_, List.forall_mem_nil _⟩
    rw [List.append_nil]
    cases harrival : o.arrival? a with
    | some r =>
        rw [Office.books_act_of_arrival harrival]
        cases r <;> rfl
    | none => rw [Office.books_act_of_no_pass harrival (not_exists.mp hmatch) hscan]

/-- What one move reports. -/
theorem Sound.events_act (h : w.Sound) (hact : w.act m = some w') :
    ∃ new, w'.session.books.events = w.session.books.events ++ new ∧ w.MayReport m new := by
  have hquiet : w'.session.books.events = w.session.books.events →
      ∃ new, w'.session.books.events = w.session.books.events ++ new ∧ w.MayReport m new :=
    fun heq => ⟨[], by rw [heq, List.append_nil], .inl (List.forall_mem_nil _)⟩
  cases act_eq_some_iff.mp hact with
  | ask | failed | depart => exact hquiet rfl
  | listed listing stamp hasked =>
      exact hquiet (congrArg Books.events (Session.books_cycle listing stamp w.session))
  | read line hidle =>
      exact hquiet (congrArg Books.events (Clerk.read_keeps line w.session).2)
  | clerk =>
      refine hquiet ?_
      rcases (w.clerk.step_keeps w.session).2 with heq | ⟨con, heq⟩
      · exact congrArg Books.events heq
      · exact (congrArg Books.events heq).trans rfl
  | patrol =>
      rcases w.patrol.events_step w.session with
        hsame | ⟨now, horizon, emitted, id, ids, syn, hwalking, hsyn, hdue, hnew⟩
      · exact hquiet hsame
      · have hid : syn.flowId = id := h.filed.syns id syn hsyn
        exact ⟨_, hnew, .inr ⟨syn, rfl, hid ▸ hsyn, rfl, h.condemns hwalking hsyn hdue⟩⟩
  | aside a haside =>
      have hfiled : (⟨w.session, []⟩ : Office).books.Filed := h.filed
      obtain ⟨new, hnew, hno⟩ := events_act_aside hfiled haside
      exact ⟨new, hnew, .inl hno⟩

/-- A move that reports a scan reports nothing else. -/
theorem MayReport.of_scan {before after : List Event} {e : Event}
    (h : w.MayReport m (before ++ e :: after)) (hscan : e.verdict = .synScan) :
    ∃ syn, m = .patrol ∧ w.session.syns.get? syn.flowId = some syn ∧
      e = .synScan (Session.examined false syn) ∧ (0.0 < syn.unixtime → w.Condemns syn) ∧
      before = [] ∧ after = [] := by
  rcases h with hno | ⟨syn, hm, hsyn, hone, hcondemns⟩
  · exact absurd hscan (hno e (by simp))
  · cases before with
    | nil =>
        obtain ⟨he, hafter⟩ := List.cons.inj hone
        exact ⟨syn, hm, hsyn, he, hcondemns, rfl, hafter⟩
    | cons first rest => simp at hone

/-- An event was reported before a move, or by it. -/
theorem reported_before_or_now {es es' old new : List Event} {e : Event}
    (h : es ++ e :: es' = old ++ new) :
    (∃ rest, old = es ++ e :: rest) ∨
      ∃ between, es = old ++ between ∧ new = between ++ e :: es' := by
  rcases List.append_eq_append_iff.mp h with ⟨between, hold, hrest⟩ | hnow
  · cases between with
    | nil => exact .inr ⟨[], by simpa using hold.symm, by simpa using hrest.symm⟩
    | cons first rest =>
        obtain ⟨rfl, _⟩ := List.cons.inj hrest
        exact .inl ⟨rest, hold⟩
  · exact .inr hnow

/-- Whatever the order of moves, each scan of a positive time was reported by a step of the scan
detector that looked the flow up in a published snapshot, at least as new as the SYN, and did not
find it. -/
theorem scanned_by_fresh (htracking : settings.tracking = true)
    (hrun : (opening settings output).run moves = some w) {es es' : List Event} {e : Event}
    (hevents : w.session.books.events = es ++ e :: es') (hscan : e.verdict = .synScan)
    (hpos : 0.0 < e.unixtime) :
    ∃ before after mid next syn, moves = before ++ .patrol :: after ∧
      (opening settings output).run before = some mid ∧ mid.act .patrol = some next ∧
      mid.session.syns.get? syn.flowId = some syn ∧
      e = .synScan (Session.examined false syn) ∧ mid.Condemns syn ∧
      mid.session.books.events = es ∧ next.session.books.events = es ++ [e] := by
  induction moves using List.reverseRecOn generalizing w es' with
  | nil =>
      cases hrun
      cases es <;> cases hevents
  | append_singleton moves m ih =>
      rw [run_concat] at hrun
      obtain ⟨mid, hmid, hact⟩ := Option.bind_eq_some_iff.mp hrun
      obtain ⟨new, hnew, hreport⟩ := ((sound_opening htracking).run hmid).events_act hact
      rcases reported_before_or_now (hevents.symm.trans hnew) with
        ⟨rest, hearlier⟩ | ⟨between, hes, rfl⟩
      · obtain ⟨before, after, mid', next, syn, rfl, hfound⟩ := ih hmid hearlier
        exact ⟨before, after ++ [m], mid', next, syn, by simp, hfound⟩
      · obtain ⟨syn, rfl, hsyn, he, hcondemns, rfl, rfl⟩ := hreport.of_scan hscan
        rw [List.append_nil] at hes
        rw [he] at hpos
        exact ⟨moves, [], mid, w, syn, rfl, hmid, hact, hsyn, he, hcondemns hpos, hes.symm, hevents⟩

def exampleHeaderAt (port unixtime : String) : Json.Bytes :=
  ("\x7b\"unixtime\":" ++ unixtime ++ ",\"IP\":\x7b\"src_addr\":\"10.0.0.1\"," ++
    "\"dest_addr\":\"10.0.0.2\"\x7d,\"TCP\":\x7b\"src_port\":" ++ port ++
    ",\"dest_port\":80\x7d\x7d").toUTF8.toList

/-- A pass relies on the stamp of the fifth second. Before it looks at any flow, a SYN of the
seventh second comes, and a listing of the sixth is published. -/
def exampleMidway : List Move :=
  [.aside (.header (exampleHeaderAt "40000" "1")), .ask 5.0, .publish (.ok ""), .depart 1000.0,
    .patrol, .patrol, .patrol, .aside (.header (exampleHeaderAt "40001" "7")), .ask 6.0,
    .publish (.ok ""), .patrol, .patrol, .patrol]

/-- What was reported is one scan of a positive time, and one SYN is still pending. -/
def reportsOne (w : Workshop) : Bool :=
  match w.session.books.events, w.session.syns.keys with
  | [e], [_] => e.verdict = .synScan && decide (0.0 < e.unixtime)
  | _, _ => false

/-- The pass reports the earlier SYN, by the listing of the sixth second, and passes the later one
over. -/
theorem exampleMidway_scanned :
    ∃ w e id, (opening exampleSampling fun _ => .written).run exampleMidway = some w ∧
      w.session.books.events = [e] ∧ w.session.syns.keys = [id] ∧ e.verdict = .synScan ∧
      0.0 < e.unixtime ∧
      ∃ before after mid syn, exampleMidway = before ++ .patrol :: after ∧
        (opening exampleSampling fun _ => .written).run before = some mid ∧
        e = .synScan (Session.examined false syn) ∧ mid.Condemns syn := by
  have hrun : ((opening exampleSampling fun _ => .written).run exampleMidway).any
      reportsOne = true := by decide +kernel
  obtain ⟨w, hw, hone⟩ := (Option.any_eq_true _ _).mp hrun
  unfold reportsOne at hone
  split at hone
  · next e id hevents hkeys =>
      obtain ⟨hscan, hpos⟩ : e.verdict = .synScan ∧ 0.0 < e.unixtime := by simpa using hone
      have hfirst : w.session.books.events = [] ++ e :: [] := hevents
      obtain ⟨before, after, mid, _, syn, hmoves, hbefore, _, _, he, hcondemns, _⟩ :=
        scanned_by_fresh rfl hw hfirst hscan hpos
      exact ⟨w, e, id, hw, hevents, hkeys, hscan, hpos, before, after, mid, syn, hmoves, hbefore,
        he, hcondemns⟩
  · cases hone

end Workshop

end FlowVerdict
