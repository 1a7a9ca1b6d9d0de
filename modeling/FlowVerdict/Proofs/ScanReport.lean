import FlowVerdict.Proofs.Double
import FlowVerdict.Proofs.MatchPass

/-!
# What a scan pass reports

A pass of the scan detector reports exactly the SYNs that are past their age and that the kernel
does not know, each of them once, whatever the order of the table. All others stay, with their
status set at most, and a second pass with nothing new finds nothing to do.
-/

namespace FlowVerdict

/-- A header that says that its flow was not handed on: with the truth value, or with the word in
any case of its letters. -/
def TcpHeader.SaysDirect (h : TcpHeader) : Prop :=
  h.others.get? "proxied" = some (.bool false) ∨
    ∃ word, h.others.get? "proxied" = some (.str word) ∧
      word.toList.map Char.toLower = "false".toList

theorem TcpHeader.isProxied_eq_false_iff {h : TcpHeader} :
    h.isProxied = false ↔ h.SaysDirect := by
  have hword : ∀ word : String, String.ofList (word.toList.map Char.toLower) = "false" ↔
      word.toList.map Char.toLower = "false".toList := by
    intro word
    rw [← String.toList_inj, String.toList_ofList]
  rw [isProxied, SaysDirect]
  split
  · next proxied heq => simp [heq]
  · next word heq => simp [heq, hword]
  · next hbool hstr =>
      refine ⟨fun hfalse => absurd hfalse (by simp), ?_⟩
      rintro (heq | ⟨word, heq, _⟩)
      · exact absurd heq (hbool false)
      · exact absurd heq (hstr word)

/-- An age that is greater than its limit. An age or a limit that is no number has no order; a
record is not kept on account of it. -/
def Exceeds (age limit : Float) : Prop :=
  limit < age ∨ ¬ age ≤ age ∨ ¬ limit ≤ limit

theorem exceeds_iff_not_le {age limit : Float} : Exceeds age limit ↔ ¬ age ≤ limit := by
  constructor
  · rintro (hlt | hage | hlimit) hle
    · exact Double.not_lt_of_le hle hlt
    · exact hage (Double.le_self_of_le hle).1
    · exact hlimit (Double.le_self_of_le hle).2
  · intro hnle
    by_cases hage : age ≤ age
    · by_cases hlimit : limit ≤ limit
      · refine .inl (by_contra fun hnlt => ?_)
        exact hnle (Double.le_of_not_lt hlimit hage hnlt)
      · exact .inr (.inr hlimit)
    · exact .inr (.inl hage)

namespace Session

variable {s : Session} {horizon : Option Float} {now : Float} {state : Session × Nat}
  {id : FlowId} {syn : Syn}

/-- A pending SYN is a scan at the time `now`: its age exceeds the limit for its kind, and the
kernel's snapshot, if there is one, is as new as the SYN and does not know its flow. -/
structure IsScan (now : Float) (s : Session) (id : FlowId) (syn : Syn) : Prop where
  direct : syn.tcp.SaysDirect → Exceeds (now - syn.unixtime) s.settings.synTimeout
  proxied : ¬ syn.tcp.SaysDirect → Exceeds (now - syn.unixtime) s.settings.synWaitProxy
  unknown : ∀ snapshot, s.snapshot = some snapshot →
    ¬ snapshot.published.stamp < syn.unixtime ∧ snapshot.isLive id = false

theorem isExpired_iff : s.isExpired now syn = true ↔
    (syn.tcp.SaysDirect → Exceeds (now - syn.unixtime) s.settings.synTimeout) ∧
      (¬ syn.tcp.SaysDirect → Exceeds (now - syn.unixtime) s.settings.synWaitProxy) := by
  rw [← TcpHeader.isProxied_eq_false_iff]
  simp only [isExpired, Settings.scanAfter, exceeds_iff_not_le]
  cases syn.tcp.isProxied <;> simp

theorem liveness?_eq_false_iff : s.liveness? s.horizon? id syn = some false ↔
    ∀ snapshot, s.snapshot = some snapshot →
      ¬ snapshot.published.stamp < syn.unixtime ∧ snapshot.isLive id = false := by
  cases hsnapshot : s.snapshot with
  | none => simp [liveness?, hsnapshot]
  | some snapshot =>
      simp only [liveness?, horizon?, hsnapshot, Option.map_some]
      split
      · next hbeyond => simp [hbeyond]
      · next hcovered => simp [hcovered]

theorem isDue_iff (hget : s.syns.get? id = some syn) :
    s.isDue s.horizon? now id = true ↔ s.IsScan now id syn := by
  rw [isDue, hget, Option.any_some, Bool.and_eq_true, beq_iff_eq, liveness?_eq_false_iff,
    isExpired_iff]
  constructor
  · rintro ⟨hunknown, hdirect, hproxied⟩
    exact ⟨hdirect, hproxied, hunknown⟩
  · rintro ⟨hdirect, hproxied, hunknown⟩
    exact ⟨hunknown, hdirect, hproxied⟩

theorem afterScan_eq_none_iff (horizon : Option Float) (now : Float)
    (hget : s.syns.get? id = some syn) :
    s.afterScan horizon now id syn = none ↔ s.isDue horizon now id = true := by
  rw [afterScan, isDue, hget, Option.any_some]
  cases s.liveness? horizon id syn with
  | none => simp
  | some live => cases live <;> simp

/-- What stays of a SYN differs from it in its status at most, and stays as it is from then on. -/
theorem of_afterScan_eq_some {kept : Syn} (h : s.afterScan horizon now id syn = some kept) :
    (∃ status, kept = { syn with status }) ∧ s.afterScan horizon now id kept = some kept := by
  cases hlive : s.liveness? horizon id syn with
  | none =>
      have hsame : syn = kept := by simpa only [afterScan, hlive, Option.some.injEq] using h
      subst hsame
      exact ⟨⟨syn.status, rfl⟩, h⟩
  | some live =>
      cases hdue : !live && s.isExpired now syn with
      | true =>
          simp only [afterScan, hlive, hdue, if_true] at h
          cases h
      | false =>
          simp only [afterScan, hlive, hdue, Bool.false_eq_true, if_false] at h
          cases h
          refine ⟨⟨_, rfl⟩, ?_⟩
          have hlive' : s.liveness? horizon id (examined live syn) = some live := hlive
          simp only [afterScan, hlive', isExpired_examined, hdue, Bool.false_eq_true, if_false]
          cases live <;> rfl

/-- A step does nothing to a SYN that stays as it is. -/
theorem Examination.eq_self {emitted : Nat} (h : Examination horizon now id s emitted state)
    (hsame : ∀ syn, s.syns.get? id = some syn → s.afterScan horizon now id syn = some syn) :
    state = (s, emitted) := by
  cases h with
  | skipped => rfl
  | reported hsyn hlive hexpired => simpa [afterScan, hlive, hexpired] using hsame _ hsyn
  | @marked _ live hsyn hlive hkept =>
      have hexamined := hsame _ hsyn
      simp only [afterScan, hlive, hkept, Bool.false_eq_true, if_false, Option.some.injEq]
        at hexamined
      have hsyns : s.syns.modify id (examined live) = s.syns := by
        rw [SynTable.modify, Table.modify_eq_self]
        intro v hv
        rwa [Option.some.inj (hv.symm.trans hsyn)]
      rw [hsyns]
      rfl

/-- A pass does nothing if every pending SYN stays as it is. -/
theorem scanPass_eq_self (h : ∀ id syn, s.syns.get? id = some syn →
    s.afterScan s.horizon? now id syn = some syn) : s.scanPass now = (0, s) := by
  have hwalk : s.syns.keys.foldl (scanOne s.horizon? now) (s, 0) = (s, 0) :=
    List.foldl_fixed' (fun id => (scanOne_examines s.horizon? now s 0 id).eq_self (h id)) _
  rw [scanPass, hwalk]

/-- A pass whose wait comes to its end, if there is one. -/
theorem scan_of_over {meanwhile : Session → Session}
    (h : ∀ wait, s.scanWait? = some wait →
      s.shutdown.fast = false ∧ (meanwhile s).isReady wait = true) :
    s.scan meanwhile now = (s.afterWait meanwhile).scanPass now := by
  rw [scan_eq, if_neg]
  rw [isCutShort, Option.any_eq_true]
  rintro ⟨wait, hwait, hcut⟩
  simp [h wait hwait] at hcut

/-- Unless its wait is cut short, a pass reports exactly the SYNs that are scans, each once and in
the order of the table, and answers with their number. They leave the table; every other SYN stays
under its flow and differs in its status at most. Connections and snapshot stay as they are. Another
pass at the same time, with the SYNs that are left in any order, does nothing. -/
theorem scan_reports_scans (s : Session) (meanwhile : Session → Session) (now : Float)
    (hover : ∀ wait, s.scanWait? = some wait →
      s.shutdown.fast = false ∧ (meanwhile s).isReady wait = true) :
    let before := s.afterWait meanwhile
    let after := (s.scan meanwhile now).2
    ∃ scans : List (FlowId × Syn),
      (∀ id syn, (id, syn) ∈ scans ↔
        before.syns.get? id = some syn ∧ before.IsScan now id syn) ∧
      scans.Sublist before.syns.records.entries ∧ (scans.map Prod.fst).Nodup ∧
      after.emissions.map Emission.event =
        before.emissions.map Emission.event ++ scans.map (fun e => .synScan e.2) ∧
      (s.scan meanwhile now).1 = scans.length ∧
      (∀ id syn, before.syns.get? id = some syn →
        (before.IsScan now id syn → after.syns.get? id = none) ∧
        (¬ before.IsScan now id syn →
          ∃ status, after.syns.get? id = some { syn with status })) ∧
      (∀ id, before.syns.get? id = none → after.syns.get? id = none) ∧
      after.connections = before.connections ∧ after.snapshot = before.snapshot ∧
      ∀ table : Table FlowId Syn, table.entries.Perm after.syns.records.entries →
        let again := { after with syns := { after.syns with records := table } }
        again.scanPass now = (0, again) := by
  intro before after
  have hscan : s.scan meanwhile now = before.scanPass now := scan_of_over hover
  have hpass : after = (before.scanPass now).2 := congrArg Prod.snd hscan
  have hget := before.get?_scanPass now
  rw [← hpass] at hget
  obtain ⟨hevents, hcount, hframe⟩ := foldl_scanOne_report before.horizon? now
    (before, 0) before.syns.records.nodup fun e => Table.mem_entries_iff.mp
  have hframe : before.Frame after := by rwa [hpass]
  refine ⟨before.syns.records.entries.filter fun e => before.isDue before.horizon? now e.1, ?_,
    List.filter_sublist, ?_, ?_, ?_, ?_, ?_, ?_, hframe.snapshot, ?_⟩
  · intro id syn
    rw [List.mem_filter, Table.mem_entries_iff]
    exact and_congr_right fun hpending => isDue_iff hpending
  · exact (List.filter_sublist.map Prod.fst).nodup before.syns.records.nodup
  · rw [hpass]
    exact hevents
  · rw [hscan]
    exact hcount.trans (Nat.zero_add _)
  · intro id syn hpending
    rw [hget, hpending, Option.bind_some, ← isDue_iff hpending,
      ← afterScan_eq_none_iff before.horizon? now hpending]
    refine ⟨fun hgone => hgone, fun hstays => ?_⟩
    obtain ⟨kept, hkept⟩ := Option.ne_none_iff_exists'.mp hstays
    obtain ⟨status, rfl⟩ := (of_afterScan_eq_some hkept).1
    exact ⟨status, hkept⟩
  · intro id hnone
    rw [hget, hnone, Option.bind_none]
  · rw [hpass]
    exact scanPass_connections now before
  · intro table hperm again
    apply scanPass_eq_self
    intro id kept hkept
    have hleft : after.syns.get? id = some kept := by
      rwa [SynTable.get?, ← Table.get?_eq_of_perm hperm]
    rw [hget, Option.bind_eq_some_iff] at hleft
    obtain ⟨syn, _, hafter⟩ := hleft
    have hagain : before.Frame again := ⟨hframe.settings, hframe.snapshot, hframe.shutdown⟩
    have hhorizon : again.horizon? = before.horizon? := by
      rw [horizon?, horizon?, hagain.snapshot]
    rw [afterScan_congr hagain, hhorizon]
    exact (of_afterScan_eq_some hafter).2

/-- A session with connection tracking, in which an old SYN and a young one are pending. -/
def exampleWatch : Session :=
  ((Office.start { CommandLine.Choices.standard.resolve.settings with tracking := true }
    fun _ => .written).run
      [.header (exampleSynFrom 40001 1), .header (exampleSynFrom 40002 70)]).session

/-- The pass waits for a listing as new as the young SYN, and then reports the old one alone. -/
theorem exampleWatch_reports : exampleWatch.scanWait?.isSome = true ∧
    ∃ scans : List (FlowId × Syn),
      (exampleWatch.scan (fun s => (s.cycle "" 80.0).2) 120.0).1 = scans.length ∧
      (∃ syn, (⟨"10.0.0.1_80+40001"⟩, syn) ∈ scans) ∧
      ∀ syn, (⟨"10.0.0.1_80+40002"⟩, syn) ∉ scans := by
  have hover : ∀ wait, exampleWatch.scanWait? = some wait →
      exampleWatch.shutdown.fast = false ∧
        (exampleWatch.cycle "" 80.0).2.isReady wait = true := by
    have hall : exampleWatch.scanWait?.all (fun wait =>
        !exampleWatch.shutdown.fast && (exampleWatch.cycle "" 80.0).2.isReady wait) = true := by
      decide +kernel
    intro wait hwait
    simpa [hwait] using hall
  set before := exampleWatch.afterWait fun s => (s.cycle "" 80.0).2 with hbefore
  have hpending : (before.syns.get? ⟨"10.0.0.1_80+40001"⟩).isSome ∧
      before.isDue before.horizon? 120.0 ⟨"10.0.0.1_80+40001"⟩ = true ∧
      before.isDue before.horizon? 120.0 ⟨"10.0.0.1_80+40002"⟩ = false := by
    decide +kernel
  obtain ⟨hold, hdue, hyoung⟩ := hpending
  obtain ⟨syn, hold⟩ := Option.isSome_iff_exists.mp hold
  obtain ⟨scans, hscans, _, _, _, hcount, _⟩ :=
    exampleWatch.scan_reports_scans (fun s => (s.cycle "" 80.0).2) 120.0 hover
  refine ⟨by decide +kernel, scans, hcount, ?_, ?_⟩
  · exact ⟨syn, (hscans _ syn).mpr ⟨hold, (isDue_iff hold).mp hdue⟩⟩
  · intro syn hmem
    obtain ⟨hget, hscan⟩ := (hscans _ syn).mp hmem
    rw [(isDue_iff hget).mpr hscan] at hyoung
    cases hyoung

end Session

end FlowVerdict
