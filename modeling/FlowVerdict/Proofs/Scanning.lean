import FlowVerdict.Proofs.Passes

/-!
# What a scan pass makes of each SYN

A pass comes to every pending SYN once. What it makes of one depends on that SYN and on what no step
of the pass changes, so it can be said flow by flow, whatever else is pending.
-/

namespace FlowVerdict

@[simp] theorem Event.synScan_examined (syn : Syn) :
    Event.synScan (Session.examined false syn) = .synScan syn :=
  rfl

namespace Session

variable {s s' : Session} {horizon : Option Float} {now : Float} {state : Session × Nat}
  {id : FlowId} {syn : Syn} {emitted : Nat}

/-- What is left of a SYN when a pass has come to it: nothing if it was due. -/
def afterScan (horizon : Option Float) (now : Float) (id : FlowId) (syn : Syn) (s : Session) :
    Option Syn :=
  match s.liveness? horizon id syn with
  | none => some syn
  | some live => if !live && s.isExpired now syn then none else some (examined live syn)

theorem afterScan_congr (h : s.Frame s') :
    s'.afterScan horizon now id syn = s.afterScan horizon now id syn := by
  have hlive : s'.liveness? horizon id syn = s.liveness? horizon id syn := by
    simp only [liveness?, h.snapshot]
  have hexpired : s'.isExpired now syn = s.isExpired now syn := by
    rw [isExpired, isExpired, h.settings]
  simp only [afterScan, hlive, hexpired]

theorem get?_emit (e : Event) (s : Session) (id : FlowId) :
    (s.emit e).syns.get? id = s.syns.get? id :=
  congrArg (fun b : Books => b.syns.get? id) (books_emit e s)

/-- What a step leaves of its flow, and of all others. -/
theorem Examination.get?_syns (h : Examination horizon now id s emitted state) (other : FlowId) :
    state.1.syns.get? other =
      if other = id then (s.syns.get? id).bind fun syn => s.afterScan horizon now id syn
      else s.syns.get? other := by
  by_cases heq : other = id
  · subst heq
    rw [if_pos rfl]
    cases h with
    | skipped hunknown =>
        cases hsyn : s.syns.get? other with
        | none => rfl
        | some syn => simp only [Option.bind_some, afterScan, hunknown syn hsyn]
    | reported hsyn hlive hexpired htake =>
        obtain ⟨_, hrecords⟩ := SynTable.of_take?_eq_some htake
        rw [get?_emit, hsyn]
        simp [afterScan, hlive, hexpired, withTables, SynTable.get?, hrecords, Table.get?_erase]
    | marked hsyn hlive hkept =>
        have hget : s.syns.records.get? other = some _ := hsyn
        rw [hsyn, Option.bind_some]
        simp only [afterScan, hlive, hkept, Bool.false_eq_true, if_false]
        simp [withTables, SynTable.get?, SynTable.modify, Table.get?_modify, hget]
  · rw [if_neg heq]
    cases h with
    | skipped => rfl
    | reported _ _ _ htake =>
        obtain ⟨_, hrecords⟩ := SynTable.of_take?_eq_some htake
        rw [get?_emit]
        simp [withTables, SynTable.get?, hrecords, Table.get?_erase, heq]
    | marked => simp [withTables, SynTable.get?, SynTable.modify, Table.get?_modify, heq]

theorem get?_foldl_scanOne {ids : List FlowId} (hnodup : ids.Nodup) (state : Session × Nat)
    (id : FlowId) : (ids.foldl (scanOne horizon now) state).1.syns.get? id =
      if id ∈ ids then
        (state.1.syns.get? id).bind fun syn => state.1.afterScan horizon now id syn
      else state.1.syns.get? id := by
  induction ids generalizing state with
  | nil => simp
  | cons head tail ih =>
      obtain ⟨hhead, htail⟩ := List.nodup_cons.mp hnodup
      have hstep := scanOne_examines horizon now state.1 state.2 head
      rw [List.foldl_cons, ih htail, hstep.get?_syns]
      simp only [afterScan_congr hstep.frame]
      by_cases heq : id = head
      · simp [heq, hhead]
      · simp [heq]

/-- What a pass leaves of each flow. -/
theorem get?_scanPass (s : Session) (now : Float) (id : FlowId) :
    (s.scanPass now).2.syns.get? id =
      (s.syns.get? id).bind fun syn => s.afterScan s.horizon? now id syn := by
  rw [scanPass_eq]
  refine (get?_foldl_scanOne s.syns.records.nodup_keys (s, 0) id).trans ?_
  split
  · rfl
  · next hnot =>
      have hnone : s.syns.get? id = none := Table.get?_eq_none_iff.mpr hnot
      rw [hnone, Option.bind_none]

def afterWait (meanwhile : Session → Session) (s : Session) : Session :=
  if s.scanWait?.isSome then meanwhile s else s

/-- Whether the wait of a pass is cut short: a fast shutdown is on when it begins, or the snapshot
is still too old at its end. -/
def isCutShort (meanwhile : Session → Session) (s : Session) : Bool :=
  s.scanWait?.any fun wait => s.shutdown.fast || !(meanwhile s).isReady wait

/-- A pass with its wait is the pass itself at the end of the wait. If the wait is cut short, there
is no pass. -/
theorem scan_eq (meanwhile : Session → Session) (now : Float) (s : Session) :
    s.scan meanwhile now =
      if s.isCutShort meanwhile then (0, if s.shutdown.fast then s else meanwhile s)
      else (s.afterWait meanwhile).scanPass now := by
  cases hwait : s.scanWait? with
  | none => simp [scan, isCutShort, afterWait, hwait]
  | some wait =>
      cases hfast : s.shutdown.fast with
      | true => simp [scan, isCutShort, hwait, hfast]
      | false =>
          cases hready : (meanwhile s).isReady wait <;>
            simp [scan, isCutShort, afterWait, hwait, hfast, hready]

/-- Examining a pending SYN reports it if it is due, and nothing else. -/
theorem Examination.report (h : Examination horizon now id s emitted state)
    (hget : s.syns.get? id = some syn) :
    state.1.books.events = s.books.events ++
        (if s.isDue horizon now id then [.synScan syn] else []) ∧
      state.2 = emitted + if s.isDue horizon now id then 1 else 0 := by
  cases h with
  | skipped hunknown => simp [isDue, hget, hunknown syn hget]
  | reported hsyn hlive hexpired _ =>
      obtain rfl := Option.some.inj (hget.symm.trans hsyn)
      rw [books_emit]
      simp [isDue, hget, hlive, hexpired, withTables, books]
  | @marked _ live hsyn hlive hkept =>
      obtain rfl := Option.some.inj (hget.symm.trans hsyn)
      have hspared : s.isDue horizon now id = false := by
        cases live <;> simp_all [isDue]
      simp [hspared, withTables, books]

/-- Over entries of the table, a walk reports those that are due, each once and in their order. -/
theorem foldl_scanOne_report {entries : List (FlowId × Syn)} (horizon : Option Float)
    (now : Float) (state : Session × Nat) (hnodup : (entries.map Prod.fst).Nodup)
    (hget : ∀ e ∈ entries, state.1.syns.get? e.1 = some e.2) :
    let scans := entries.filter fun e => state.1.isDue horizon now e.1
    let out := (entries.map Prod.fst).foldl (scanOne horizon now) state
    out.1.books.events = state.1.books.events ++ scans.map (fun e => .synScan e.2) ∧
      out.2 = state.2 + scans.length ∧ state.1.Frame out.1 := by
  induction entries generalizing state with
  | nil => exact ⟨by simp, rfl, .refl _⟩
  | cons first rest ih =>
      rw [List.map_cons, List.nodup_cons] at hnodup
      obtain ⟨hfirst, hrest⟩ := List.forall_mem_cons.mp hget
      have hstep := scanOne_examines horizon now state.1 state.2 first.1
      obtain ⟨hevents, hcount⟩ := hstep.report hfirst
      have hsame : ∀ e ∈ rest, (scanOne horizon now state first.1).1.syns.get? e.1 = some e.2 := by
        intro e hmem
        have hne : e.1 ≠ first.1 := fun heq => hnodup.1 (heq ▸ List.mem_map_of_mem hmem)
        rw [hstep.get?_syns, if_neg hne, hrest e hmem]
      have hdue :
          rest.filter (fun e => (scanOne horizon now state first.1).1.isDue horizon now e.1) =
            rest.filter fun e => state.1.isDue horizon now e.1 :=
        List.filter_congr fun e hmem =>
          isDue_congr hstep.frame (hrest e hmem) (hsame e hmem) rfl horizon now
      obtain ⟨hevents', hcount', hframe'⟩ := ih _ hnodup.2 hsame
      rw [hdue] at hevents' hcount'
      rw [List.map_cons, List.foldl_cons, List.filter_cons]
      refine ⟨?_, ?_, hstep.frame.trans hframe'⟩
      · rw [hevents', hevents]
        split <;> simp
      · rw [hcount', hcount]
        split
        · simp only [List.length_cons]
          omega
        · rfl

/-- What examining a flow reports: its SYN, if it is due. -/
theorem Examination.events (h : Examination horizon now id s emitted state) :
    state.1.books.events = s.books.events ∨
      ∃ syn, s.syns.get? id = some syn ∧ s.isDue horizon now id = true ∧
        state.1.books.events = s.books.events ++ [.synScan (examined false syn)] := by
  cases h with
  | skipped | marked => exact .inl rfl
  | @reported syn _ hsyn hlive hexpired _ =>
      refine .inr ⟨syn, hsyn, ?_, congrArg Books.events (books_emit _ _)⟩
      simp [isDue, hsyn, hlive, hexpired]

/-- A pass reports nothing but pending SYNs that are due. -/
theorem events_scanPass (s : Session) (now : Float) :
    ∃ new, (s.scanPass now).2.books.events = s.books.events ++ new ∧
      ∀ e ∈ new, ∃ id syn, s.syns.get? id = some syn ∧ s.isDue s.horizon? now id = true ∧
        e = .synScan (examined false syn) := by
  obtain ⟨hevents, _⟩ := foldl_scanOne_report s.horizon? now (s, 0) s.syns.records.nodup
    fun e => Table.mem_entries_iff.mp
  refine ⟨_, hevents, fun e hmem => ?_⟩
  obtain ⟨⟨id, syn⟩, hscan, rfl⟩ := List.mem_map.mp hmem
  obtain ⟨hpending, hdue⟩ := List.mem_filter.mp hscan
  exact ⟨id, syn, Table.mem_entries_iff.mp hpending, hdue, rfl⟩

end Session

end FlowVerdict
