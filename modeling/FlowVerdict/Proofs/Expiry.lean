import FlowVerdict.Proofs.Lifetime
import Mathlib.Data.List.MinMax
import Mathlib.Data.List.Perm.Subperm

/-!
# What the snapshot lets go

The table of ports does not age. A port is there because of a flow that goes by its name, and it
goes with that flow at the latest: so the table is never larger than that of the flows, and once
nothing is listed any more both run empty.
-/

namespace FlowVerdict.Kernel

namespace Liveness

def remaining : Liveness → Nat
  | .fresh timeout => timeout
  | .stale left => left
  | .grace _ => 0

/-- The flow is not kept beyond what is left of its timeout, the grace and two cycles. -/
def Bounded (grace : Nat) (l : Liveness) : Prop :=
  l.lease grace ≤ l.remaining + grace + 2

theorem Bounded.age {grace : Nat} {l l' : Liveness} (h : l.Bounded grace)
    (hage : l.age grace = some l') : l'.Bounded grace := by
  unfold Bounded at h ⊢
  cases l with
  | fresh timeout =>
      cases hage
      simp only [lease, remaining]
      omega
  | stale left =>
      cases left with
      | zero =>
          cases hage
          simp only [lease, remaining]
          omega
      | succ n =>
          cases hage
          simp only [lease, remaining]
          omega
  | grace left =>
      cases left with
      | zero => cases hage
      | succ n =>
          cases hage
          simp only [lease, remaining] at h ⊢
          omega

/-- Whatever is heard of a flow, it stays bounded. -/
theorem Bounded.foldl_hear {grace : Nat} (heard : List (Option Nat)) {before : Option Liveness}
    (hbefore : ∀ l, before = some l → l.Bounded grace) {l : Liveness}
    (h : heard.foldl (hear grace) before = some l) : l.Bounded grace := by
  induction heard generalizing before with
  | nil => exact hbefore l h
  | cons head tail ih =>
      apply ih _ h
      intro next hnext
      cases head with
      | some timeout =>
          cases hnext
          exact Nat.le_refl _
      | none =>
          obtain ⟨last, hlast, hage⟩ := Option.bind_eq_some_iff.mp hnext
          exact (hbefore last hlast).age hage

end Liveness

namespace Snapshot

variable {s : Snapshot} {id name : FlowId}

/-- Every port is known under the name of a flow that is kept. -/
def Owned (s : Snapshot) : Prop :=
  ∀ name, (s.ports.get? name).isSome → ∃ id, s.conKey? id = some name

theorem Owned.age (h : s.Owned) : s.age.Owned := by
  intro name hport
  rw [get?_ports_age] at hport
  by_cases hevicted : name ∈ s.evicted
  · simp [hevicted] at hport
  · rw [if_neg hevicted] at hport
    obtain ⟨id, hid⟩ := h name hport
    obtain ⟨flow, hflow, hname⟩ := conKey?_eq_some_iff.mp hid
    refine ⟨id, conKey?_age_eq_some_iff.mpr ⟨flow, hflow, ?_, hname⟩⟩
    intro hage
    exact hevicted (mem_evicted_iff.mpr ⟨id, flow, hflow, hage, hname⟩)

theorem Owned.merge (h : s.Owned) (row : Row) : (s.merge row).Owned := by
  intro name hport
  rw [get?_ports_merge] at hport
  by_cases hrow : name = row.conKey
  · exact ⟨row.synKey, by rw [conKey?_merge, if_pos rfl, hrow]⟩
  · rw [if_neg hrow] at hport
    by_cases hmoved : s.conKey? row.synKey = some name
    · simp [hmoved] at hport
    · rw [if_neg hmoved] at hport
      obtain ⟨id, hid⟩ := h name hport
      have hother : id ≠ row.synKey := by
        rintro rfl
        exact hmoved hid
      exact ⟨id, by rw [conKey?_merge, if_neg hother, hid]⟩

theorem Owned.steps (h : s.Owned) (xs : List Step) : (s.steps xs).Owned := by
  induction xs generalizing s with
  | nil => exact h
  | cons x rest ih =>
      apply ih
      cases x with
      | ageing => exact h.age
      | listed row => exact h.merge row

theorem Owned.rounds (h : s.Owned) (rs : List Round) : (s.rounds rs).Owned := by
  rw [rounds_eq]
  exact h.steps (rs.flatMap Round.steps)

/-- Different ports have different flows, so there are no more of them. -/
theorem Owned.size_le (h : s.Owned) : s.ports.size ≤ s.flows.size := by
  have hsub : s.ports.keys ⊆ s.flows.values.map Tracked.conKey := by
    intro name hname
    obtain ⟨port, hport⟩ := Table.mem_keys_iff.mp hname
    obtain ⟨id, hid⟩ := h name (by simp [hport])
    obtain ⟨flow, hflow, rfl⟩ := conKey?_eq_some_iff.mp hid
    exact List.mem_map_of_mem (Table.mem_values_iff.mpr ⟨id, hflow⟩)
  have hle := (List.subperm_of_subset s.ports.nodup_keys hsub).length_le
  simpa [Table.keys, Table.values, Table.size] using hle

theorem Owned.isEmpty_ports (h : s.Owned) (hflows : s.flows.isEmpty = true) :
    s.ports.isEmpty = true := by
  apply Table.isEmpty_iff.mpr
  intro name
  by_contra hport
  obtain ⟨id, hid⟩ := h name (Option.isSome_iff_ne_none.mpr hport)
  rw [conKey?, Table.isEmpty_iff.mp hflows id] at hid
  cases hid

theorem grace_rounds (s : Snapshot) (rs : List Round) : (s.rounds rs).grace = s.grace := by
  induction rs generalizing s with
  | nil => rfl
  | cons r rest ih => exact (ih (s.round r)).trans (grace_round s r)

def longestRemaining (s : Snapshot) : Nat :=
  (s.flows.values.map fun flow => flow.liveness.remaining).foldr max 0

theorem remaining_le_longest {l : Liveness} (h : s.liveness? id = some l) :
    l.remaining ≤ s.longestRemaining := by
  obtain ⟨flow, hflow, rfl⟩ := Option.map_eq_some_iff.mp h
  have hmem : flow.liveness.remaining ∈ s.flows.values.map fun flow => flow.liveness.remaining :=
    List.mem_map.mpr ⟨flow, Table.mem_values_iff.mpr ⟨id, hflow⟩, rfl⟩
  exact List.le_max_of_le' 0 hmem (Nat.le_refl _)

/-- Rounds that list nothing say nothing of any flow. -/
theorem news?_of_no_rows {quiet : List Round}
    (hquiet : ∀ r ∈ quiet, ∀ listing, r.answer = .ok listing → rows listing = []) (id : FlowId) :
    ∀ heard ∈ quiet.filterMap (Round.news? id), heard = none := by
  intro heard hmem
  obtain ⟨r, hr, hnews⟩ := List.mem_filterMap.mp hmem
  cases hanswer : r.answer with
  | error failure => simp [Round.news?, hanswer, Except.toOption] at hnews
  | ok listing =>
      have hrows := hquiet r hr listing hanswer
      have hheard : timeout? id listing = heard := by
        simpa [Round.news?, hanswer, Except.toOption] using hnews
      rw [← hheard, timeout?, hrows]
      rfl

/-- A flow does not outlive more rounds that list nothing than its lease. -/
theorem liveness?_rounds_eq_none {quiet : List Round}
    (hquiet : ∀ r ∈ quiet, ∀ listing, r.answer = .ok listing → rows listing = [])
    (hbound : ∀ l, s.liveness? id = some l → l.lease s.grace < quiet.countP Round.succeeded) :
    (s.rounds quiet).liveness? id = none := by
  rw [← Option.not_isSome_iff_eq_none, liveness?_rounds,
    Liveness.isSome_foldl_hear_iff (news?_of_no_rows hquiet id), Round.length_filterMap_news?]
  rintro ⟨l, hl, hle⟩
  exact absurd hle (Nat.not_le.mpr (hbound l hl))

/-- After any rounds of the sampler every port belongs to a flow that is kept, so there are no more
ports than flows. Once as many listings without rows have followed as are left of the longest
timeout, the grace and two cycles, and one more, both tables are empty. -/
theorem ports_owned_and_expire (grace : Nat) (rs : List Round) :
    let s := rounds { grace } rs
    (∀ name, s.ports.contains name = true →
        ∃ id flow, s.flows.get? id = some flow ∧ flow.conKey = name) ∧
      s.ports.size ≤ s.flows.size ∧
      ∀ quiet : List Round,
        (∀ r ∈ quiet, ∀ listing, r.answer = .ok listing → rows listing = []) →
        s.longestRemaining + grace + 2 < quiet.countP Round.succeeded →
        (s.rounds quiet).ports.isEmpty = true ∧ (s.rounds quiet).flows.isEmpty = true := by
  intro s
  have howned : s.Owned := by
    apply Owned.rounds
    intro name hport
    cases hport
  have hgrace : s.grace = grace := grace_rounds { grace } rs
  refine ⟨?_, howned.size_le, ?_⟩
  · intro name hname
    rw [Table.contains_eq_isSome] at hname
    obtain ⟨id, hid⟩ := howned name hname
    exact ⟨id, conKey?_eq_some_iff.mp hid⟩
  · intro quiet hquiet hcount
    have hflows : (s.rounds quiet).flows.isEmpty = true := by
      apply Table.isEmpty_iff.mpr
      intro id
      have hnone : (s.rounds quiet).liveness? id = none := by
        apply liveness?_rounds_eq_none hquiet
        intro l hl
        have hlongest := remaining_le_longest hl
        have hbounded : l.Bounded grace := by
          rw [liveness?_rounds] at hl
          exact Liveness.Bounded.foldl_hear _ (by rintro _ ⟨⟩) hl
        rw [hgrace]
        unfold Liveness.Bounded at hbounded
        omega
      exact Option.map_eq_none_iff.mp hnone
    exact ⟨(howned.rounds quiet).isEmpty_ports hflows, hflows⟩

def exampleSilence : List Round :=
  [⟨.ok "", 2.0⟩, ⟨.ok "", 3.0⟩, ⟨.ok "", 4.0⟩]

/-- Without timeout and without grace, a flow that was listed once is still kept after two listings
without it, together with its port; after the third both are gone. -/
theorem exampleSilence_expires :
    let s := rounds { grace := 0 } [⟨.ok (exampleRow "5001" "7000" "0"), 1.0⟩]
    (s.rounds (exampleSilence.take 2)).ports.contains ⟨"a_80+7000"⟩ = true ∧
      (s.rounds (exampleSilence.take 2)).isLive ⟨"a_80+5001"⟩ = true ∧
      (s.rounds exampleSilence).ports.isEmpty = true ∧
      (s.rounds exampleSilence).flows.isEmpty = true := by
  intro s
  have hs : s = (steps { grace := 0 }
      [.ageing, .listed ⟨0, ⟨"a_80+7000"⟩, ⟨"a_80+5001"⟩, some 5001⟩]).publish s.published := by
    have hrounds := rounds_eq { grace := 0 } [⟨.ok (exampleRow "5001" "7000" "0"), 1.0⟩]
    simp only [List.flatMap_cons, List.flatMap_nil, Round.steps, rows_exampleRow_first] at hrounds
    exact hrounds
  have hrows : rows "" = [] := by decide +kernel
  have hquiet : ∀ r ∈ exampleSilence, ∀ listing, r.answer = .ok listing → rows listing = [] := by
    intro r hmem listing hanswer
    simp only [exampleSilence, List.mem_cons, List.not_mem_nil, or_false] at hmem
    rcases hmem with rfl | rfl | rfl
    all_goals
      cases hanswer
      exact hrows
  have hlongest : s.longestRemaining = 0 := by
    rw [hs]
    decide +kernel
  have htwo : (exampleSilence.take 2).flatMap Round.steps = [.ageing, .ageing] := by
    simp [exampleSilence, Round.steps, hrows]
  have hkept : (s.rounds (exampleSilence.take 2)).ports.contains ⟨"a_80+7000"⟩ = true ∧
      (s.rounds (exampleSilence.take 2)).isLive ⟨"a_80+5001"⟩ = true := by
    rw [rounds_eq, htwo, hs]
    decide +kernel
  refine ⟨hkept.1, hkept.2, ?_⟩
  apply (ports_owned_and_expire 0 _).2.2 exampleSilence hquiet
  rw [show rounds { grace := 0 } [⟨.ok (exampleRow "5001" "7000" "0"), 1.0⟩] = s from rfl, hlongest]
  decide

end Snapshot

end FlowVerdict.Kernel
