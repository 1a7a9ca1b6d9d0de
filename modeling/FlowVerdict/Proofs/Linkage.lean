import FlowVerdict.Proofs.Snapshot
import Mathlib.Data.List.Induction

/-!
# When a flow of the snapshot still has its port

A flow that the snapshot keeps names an entry of the table of ports. The entry is written by every
row of that name, and erased whenever a flow gives the name up, whoever else goes by it. So the
entry is there exactly if no flow gave the name up since it was last listed.
-/

namespace FlowVerdict.Kernel

namespace Snapshot

variable {s : Snapshot} {id name : FlowId} {x : Step}

/-- Whether some flow goes by a name before a step, and no longer after it. -/
def GivesUp (s : Snapshot) (x : Step) (name : FlowId) : Prop :=
  ∃ id, s.conKey? id = some name ∧ (s.step x).conKey? id ≠ some name

/-- Since each time that some flow gave the name up, a row has listed the name again. -/
def Relisted (s : Snapshot) (xs : List Step) (name : FlowId) : Prop :=
  ∀ before x after, xs = before ++ x :: after → (s.steps before).GivesUp x name →
    ∃ later ∈ after, later.Lists name

/-- A flow that goes by a name after a step did so before, or was listed under it. -/
theorem lists_or_named_of_step (h : (s.step x).conKey? id = some name) :
    x.Lists name ∨ s.conKey? id = some name := by
  cases x with
  | ageing =>
      obtain ⟨flow, hflow, _, hname⟩ := conKey?_age_eq_some_iff.mp h
      exact .inr (conKey?_eq_some_iff.mpr ⟨flow, hflow, hname⟩)
  | listed row =>
      rw [step, conKey?_merge] at h
      split at h
      · exact .inl ⟨row, rfl, Option.some.inj h⟩
      · exact .inr h

/-- Nobody gives a name up at a row that lists it. -/
theorem not_givesUp_of_lists (h : x.Lists name) : ¬ s.GivesUp x name := by
  obtain ⟨row, rfl, rfl⟩ := h
  rintro ⟨id, hbefore, hafter⟩
  rw [step, conKey?_merge] at hafter
  split at hafter
  · exact hafter rfl
  · exact hafter hbefore

theorem givesUp_ageing_iff : s.GivesUp .ageing name ↔ name ∈ s.evicted := by
  rw [mem_evicted_iff]
  constructor
  · rintro ⟨id, hbefore, hafter⟩
    obtain ⟨flow, hflow, hname⟩ := conKey?_eq_some_iff.mp hbefore
    refine ⟨id, flow, hflow, ?_, hname⟩
    by_contra hkept
    exact hafter (conKey?_age_eq_some_iff.mpr ⟨flow, hflow, hkept, hname⟩)
  · rintro ⟨id, flow, hflow, hage, hname⟩
    refine ⟨id, conKey?_eq_some_iff.mpr ⟨flow, hflow, hname⟩, fun hafter => ?_⟩
    obtain ⟨kept, hkept, hstays, _⟩ := conKey?_age_eq_some_iff.mp hafter
    rw [hflow] at hkept
    exact hstays (Option.some.inj hkept ▸ hage)

theorem givesUp_listed_iff {row : Row} (hname : name ≠ row.conKey) :
    s.GivesUp (.listed row) name ↔ s.conKey? row.synKey = some name := by
  constructor
  · rintro ⟨id, hbefore, hafter⟩
    rw [step, conKey?_merge] at hafter
    split at hafter
    · next heq => rwa [← heq]
    · exact absurd hbefore hafter
  · intro hbefore
    refine ⟨row.synKey, hbefore, ?_⟩
    rw [step, conKey?_merge, if_pos rfl]
    exact fun heq => hname (Option.some.inj heq).symm

/-- After a step a port is known under a name if the step listed the name, or if it was known before
and nobody gave the name up. -/
theorem isSome_ports_step (s : Snapshot) (x : Step) (name : FlowId) :
    ((s.step x).ports.get? name).isSome ↔
      x.Lists name ∨ (s.ports.get? name).isSome ∧ ¬ s.GivesUp x name := by
  cases x with
  | ageing =>
      have hlists : ¬ Step.ageing.Lists name := by
        rintro ⟨_, ⟨⟩, _⟩
      rw [step, get?_ports_age, givesUp_ageing_iff]
      split <;> simp_all
  | listed row =>
      rw [step, get?_ports_merge]
      by_cases hname : name = row.conKey
      · have hlists : (Step.listed row).Lists name := ⟨row, rfl, hname.symm⟩
        simp [hname, hname ▸ hlists]
      · have hlists : ¬ (Step.listed row).Lists name := by
          rintro ⟨_, ⟨⟩, heq⟩
          exact hname heq.symm
        rw [if_neg hname, givesUp_listed_iff hname]
        split <;> simp_all

/-- One more step: the name is listed, or nobody gives it up. -/
theorem relisted_append (s : Snapshot) (xs : List Step) (x : Step) (name : FlowId) :
    s.Relisted (xs ++ [x]) name ↔
      x.Lists name ∨ s.Relisted xs name ∧ ¬ (s.steps xs).GivesUp x name := by
  constructor
  · intro h
    by_cases hlists : x.Lists name
    · exact .inl hlists
    refine .inr ⟨fun before y after hsplit hgives => ?_, fun hgives => ?_⟩
    · obtain ⟨later, hmem, hlater⟩ := h before y (after ++ [x]) (by simp [hsplit]) hgives
      rcases List.mem_append.mp hmem with hmem | hmem
      · exact ⟨later, hmem, hlater⟩
      · exact absurd (List.mem_singleton.mp hmem ▸ hlater) hlists
    · obtain ⟨later, hmem, _⟩ := h xs x [] rfl hgives
      cases hmem
  · intro h before y after hsplit hgives
    rcases List.eq_nil_or_concat after with rfl | ⟨init, last, rfl⟩
    · obtain ⟨rfl, hlast⟩ := List.append_inj' hsplit rfl
      cases hlast
      rcases h with hlists | ⟨_, hkeeps⟩
      · exact absurd hgives (not_givesUp_of_lists hlists)
      · exact absurd hgives hkeeps
    · rw [List.concat_eq_append, ← List.cons_append, ← List.append_assoc] at hsplit
      obtain ⟨hinit, hlast⟩ := List.append_inj' hsplit rfl
      cases hlast
      rcases h with hlists | ⟨hrelisted, _⟩
      · exact ⟨x, by simp, hlists⟩
      · obtain ⟨later, hmem, hlater⟩ := hrelisted before y init hinit hgives
        exact ⟨later, by simp [hmem], hlater⟩

/-- From an empty snapshot, the port of a flow that is kept is known if and only if its name was
listed since it was last given up. -/
theorem isSome_ports_steps_iff {xs : List Step} (hempty : s.flows = .empty)
    (h : (s.steps xs).conKey? id = some name) :
    ((s.steps xs).ports.get? name).isSome ↔ s.Relisted xs name := by
  -- By the last step: it decides anew if it lists the name or if someone gives the name up.
  induction xs using List.reverseRecOn generalizing id with
  | nil =>
      rw [steps, List.foldl_nil, conKey?, hempty] at h
      cases h
  | append_singleton xs x ih =>
      have hlast : s.steps (xs ++ [x]) = (s.steps xs).step x := steps_append s xs [x]
      rw [hlast] at h ⊢
      rw [isSome_ports_step, relisted_append]
      rcases lists_or_named_of_step h with hlists | hnamed
      · simp [hlists]
      · rw [ih hnamed]

theorem status_reconcile_eq_absent_iff (s : Snapshot) (con : Connection) :
    (s.reconcile con).status = some .absent ↔ s.ports.get? con.flowId = none := by
  unfold reconcile
  cases s.ports.get? con.flowId with
  | none => simp
  | some port =>
      cases port with
      | none => simp
      | some port =>
          dsimp only
          split <;> simp

/-- After any rounds of the sampler, the connection of a flow that is kept can still be corrected if
and only if the name of the flow was listed since anyone gave it up; else its status says that the
snapshot does not know it. -/
theorem linked_iff_relisted (grace : Nat) (rs : List Round) {id : FlowId} {flow : Tracked}
    (h : (rounds { grace } rs).flows.get? id = some flow) :
    ((rounds { grace } rs).ports.contains flow.conKey = true ↔
        Relisted { grace } (rs.flatMap Round.steps) flow.conKey) ∧
      ∀ con : Connection, con.flowId = flow.conKey →
        (((rounds { grace } rs).reconcile con).status = some .absent ↔
          ¬ Relisted { grace } (rs.flatMap Round.steps) flow.conKey) := by
  have hsteps := rounds_eq { grace } rs
  have hname : (steps { grace } (rs.flatMap Round.steps)).conKey? id = some flow.conKey := by
    rw [hsteps] at h
    exact conKey?_eq_some_iff.mpr ⟨flow, h, rfl⟩
  have hports : ((rounds { grace } rs).ports.get? flow.conKey).isSome ↔
      Relisted { grace } (rs.flatMap Round.steps) flow.conKey := by
    rw [← isSome_ports_steps_iff rfl hname, hsteps]
    rfl
  refine ⟨?_, fun con hcon => ?_⟩
  · rw [Table.contains_eq_isSome, hports]
  · rw [status_reconcile_eq_absent_iff, hcon, ← hports, Option.not_isSome_iff_eq_none]

/-- A flow ends, the next one gets its port behind NAT, and nothing is listed for two more
rounds. -/
def exampleRounds : List Round :=
  [⟨.ok (exampleRow "5001" "7000" "0"), 1.0⟩, ⟨.ok (exampleRow "5002" "7000" "100"), 2.0⟩,
    ⟨.ok "", 3.0⟩, ⟨.ok "", 4.0⟩]

/-- The second flow is still alive when the first one leaves and takes the port along. -/
theorem exampleRounds_linked_then_not :
    (∃ flow,
      (rounds { grace := 0 } (exampleRounds.take 3)).flows.get? ⟨"a_80+5002"⟩ = some flow ∧
        Relisted { grace := 0 } ((exampleRounds.take 3).flatMap Round.steps) flow.conKey) ∧
    ∃ flow,
      (rounds { grace := 0 } exampleRounds).flows.get? ⟨"a_80+5002"⟩ = some flow ∧
        ¬ Relisted { grace := 0 } (exampleRounds.flatMap Round.steps) flow.conKey := by
  have hsteps : exampleRounds.flatMap Round.steps =
      [.ageing, .listed ⟨0, ⟨"a_80+7000"⟩, ⟨"a_80+5001"⟩, some 5001⟩,
        .ageing, .listed ⟨100, ⟨"a_80+7000"⟩, ⟨"a_80+5002"⟩, some 5002⟩, .ageing, .ageing] := by
    simp only [exampleRounds, List.flatMap_cons, List.flatMap_nil, Round.steps,
      rows_exampleRow_first, rows_exampleRow_second]
    rfl
  have htake : (exampleRounds.take 3).flatMap Round.steps =
      (exampleRounds.flatMap Round.steps).take 5 := by
    rw [hsteps]
    simp only [exampleRounds, List.take_succ_cons, List.take_zero, List.flatMap_cons,
      List.flatMap_nil, Round.steps, rows_exampleRow_first, rows_exampleRow_second]
    rfl
  have hflow : (rounds { grace := 0 } (exampleRounds.take 3)).flows.get? ⟨"a_80+5002"⟩ =
      some ⟨⟨"a_80+7000"⟩, .stale 100⟩ := by
    rw [rounds_eq, htake, hsteps]
    decide +kernel
  have hlater : (rounds { grace := 0 } exampleRounds).flows.get? ⟨"a_80+5002"⟩ =
      some ⟨⟨"a_80+7000"⟩, .stale 99⟩ := by
    rw [rounds_eq, hsteps]
    decide +kernel
  refine ⟨⟨_, hflow, (linked_iff_relisted 0 _ hflow).1.mp ?_⟩, _, hlater, ?_⟩
  · rw [rounds_eq, htake, hsteps]
    decide +kernel
  · rw [← (linked_iff_relisted 0 _ hlater).1, rounds_eq, hsteps]
    decide +kernel

end Snapshot

end FlowVerdict.Kernel
