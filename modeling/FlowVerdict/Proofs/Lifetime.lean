import FlowVerdict.Proofs.Snapshot
import Mathlib.Data.List.Induction

/-!
# How long a flow is alive

A flow takes notice of two things in the rounds of the sampler: a listing that gives it a timeout,
and a listing that does not name it. The last timeout gives it a lease, and each listing after that
uses up one cycle of it.
-/

namespace FlowVerdict.Kernel

namespace Liveness

/-- The listings without the flow that it outlives. -/
def lease (grace : Nat) : Liveness → Nat
  | .fresh timeout => timeout + grace + 2
  | .stale remaining => remaining + grace + 1
  | .grace remaining => remaining

theorem lease_eq_zero_of_age {grace : Nat} {l : Liveness} (h : l.age grace = none) :
    l.lease grace = 0 := by
  cases l with
  | fresh timeout => cases h
  | stale remaining => cases remaining <;> cases h
  | grace remaining =>
      cases remaining with
      | zero => rfl
      | succ n => cases h

theorem lease_of_age {grace : Nat} {l l' : Liveness} (h : l.age grace = some l') :
    l.lease grace = l'.lease grace + 1 := by
  cases l with
  | fresh timeout =>
      cases h
      simp only [lease]
  | stale remaining =>
      cases remaining with
      | zero =>
          cases h
          simp only [lease]
          omega
      | succ n =>
          cases h
          simp only [lease]
          omega
  | grace remaining =>
      cases remaining with
      | zero => cases h
      | succ n =>
          cases h
          rfl

/-- What becomes of a flow in a round whose listing has the given timeout for it, or none. -/
def hear (grace : Nat) (before : Option Liveness) : Option Nat → Option Liveness
  | some timeout => some (.fresh timeout)
  | none => before.bind (age grace)

/-- A flow is forgotten once it has been left out of more listings than its lease. -/
theorem isSome_foldl_hear_iff {grace : Nat} {heard : List (Option Nat)}
    (h : ∀ timeout? ∈ heard, timeout? = none) (before : Option Liveness) :
    (heard.foldl (hear grace) before).isSome ↔
      ∃ l, before = some l ∧ heard.length ≤ l.lease grace := by
  induction heard generalizing before with
  | nil => simp [Option.isSome_iff_exists]
  | cons head tail ih =>
      have hhead : head = none := h head List.mem_cons_self
      have htail : ∀ timeout? ∈ tail, timeout? = none := fun t hmem =>
        h t (List.mem_cons_of_mem head hmem)
      rw [List.foldl_cons, ih htail, hhead, hear, List.length_cons]
      cases before with
      | none => simp
      | some l =>
          rw [Option.bind_some]
          cases hage : l.age grace with
          | none =>
              have hlease := lease_eq_zero_of_age hage
              simp [hlease]
          | some l' =>
              have hlease := lease_of_age hage
              simp [hlease]

end Liveness

/-- The timeout that a listing gives a flow: the last one, if it names the flow. -/
def timeout? (id : FlowId) (listing : String) : Option Nat :=
  ((rows listing).filter fun row => row.synKey = id).getLast?.map Row.timeout

namespace Round

def succeeded (r : Round) : Bool :=
  r.answer.toOption.isSome

/-- What a round says of a flow, if its listing could be had. -/
def news? (id : FlowId) (r : Round) : Option (Option Nat) :=
  r.answer.toOption.map (Kernel.timeout? id)

def Names (id : FlowId) (timeout : Nat) (r : Round) : Prop :=
  r.news? id = some (some timeout)

theorem isSome_news? (id : FlowId) (r : Round) : (r.news? id).isSome = r.succeeded :=
  Option.isSome_map

theorem length_filterMap_news? (id : FlowId) (rs : List Round) :
    (rs.filterMap (news? id)).length = rs.countP succeeded := by
  induction rs with
  | nil => rfl
  | cons r rest ih =>
      have hr := isSome_news? id r
      rw [List.filterMap_cons, List.countP_cons, ← hr]
      cases r.news? id with
      | none => simpa using ih
      | some heard => simpa using ih

/-- There is a last round that names a flow, unless none does. -/
theorem exists_last_names (id : FlowId) (rs : List Round) :
    (∀ r ∈ rs, ∀ timeout, ¬ r.Names id timeout) ∨
      ∃ before r after timeout, rs = before ++ r :: after ∧ r.Names id timeout ∧
        ∀ q ∈ after, ∀ other, ¬ q.Names id other := by
  induction rs with
  | nil =>
      refine .inl fun r hmem => ?_
      cases hmem
  | cons r rest ih =>
      rcases ih with hnone | ⟨before, q, after, timeout, rfl, hq, hafter⟩
      · by_cases hr : ∃ timeout, r.Names id timeout
        · obtain ⟨timeout, hr⟩ := hr
          exact .inr ⟨[], r, rest, timeout, rfl, hr, hnone⟩
        · refine .inl fun q hmem => ?_
          rcases List.mem_cons.mp hmem with rfl | hmem
          · exact not_exists.mp hr
          · exact hnone q hmem
      · exact .inr ⟨r :: before, q, after, timeout, rfl, hq, hafter⟩

end Round

namespace Snapshot

variable {s : Snapshot} {id : FlowId}

def liveness? (s : Snapshot) (id : FlowId) : Option Liveness :=
  (s.flows.get? id).map Tracked.liveness

theorem isLive_eq_isSome (s : Snapshot) (id : FlowId) :
    s.isLive id = (s.liveness? id).isSome := by
  rw [isLive, Table.contains_eq_isSome, liveness?, Option.isSome_map]

theorem liveness?_age (s : Snapshot) (id : FlowId) :
    s.age.liveness? id = (s.liveness? id).bind (Liveness.age s.grace) := by
  rw [liveness?, liveness?, get?_flows_age]
  cases s.flows.get? id with
  | none => rfl
  | some flow =>
      rw [Option.bind_some, Option.map_some, Option.bind_some, Option.map_map]
      exact Option.map_id'

/-- Rows make a flow as fresh as the last of them that is of the flow says. -/
theorem liveness?_foldl_merge (rs : List Row) (s : Snapshot) (id : FlowId) :
    (rs.foldl merge s).liveness? id =
      (((rs.filter fun row => row.synKey = id).getLast?.map fun row => .fresh row.timeout) <|>
        s.liveness? id) := by
  induction rs using List.reverseRecOn with
  | nil => rfl
  | append_singleton rs row ih =>
      rw [List.foldl_append, List.foldl_cons, List.foldl_nil, liveness?, flows_merge,
        Table.get?_insert, List.filter_append]
      by_cases heq : id = row.synKey
      · subst heq
        simp
      · rw [if_neg heq, ← liveness?, ih]
        simp [Ne.symm heq]

/-- A round changes how a flow stands by what it says of the flow, and not otherwise. -/
theorem liveness?_round (s : Snapshot) (r : Round) (id : FlowId) :
    (s.round r).liveness? id =
      match r.news? id with
      | some heard => Liveness.hear s.grace (s.liveness? id) heard
      | none => s.liveness? id := by
  obtain ⟨answer, stamp⟩ := r
  cases answer with
  | error failure => rfl
  | ok listing =>
      have hnews : Round.news? id ⟨.ok listing, stamp⟩ = some (timeout? id listing) := rfl
      have hround : (s.round ⟨.ok listing, stamp⟩).liveness? id =
          ((rows listing).foldl merge s.age).liveness? id := by
        have hcycle : s.round ⟨.ok listing, stamp⟩ = (s.cycle listing stamp).1 := rfl
        rw [hcycle, cycle_eq]
        rfl
      rw [hnews, hround, liveness?_foldl_merge, timeout?, liveness?_age]
      dsimp only
      cases ((rows listing).filter fun row => row.synKey = id).getLast? with
      | none => rfl
      | some row => rfl

/-- Rows change the two tables only. -/
theorem frame_foldl_merge (rs : List Row) (s : Snapshot) :
    (rs.foldl merge s).grace = s.grace ∧ (rs.foldl merge s).published = s.published := by
  induction rs generalizing s with
  | nil => exact ⟨rfl, rfl⟩
  | cons row rest ih => exact ih (s.merge row)

theorem grace_round (s : Snapshot) (r : Round) : (s.round r).grace = s.grace := by
  unfold round
  split
  · rw [cycle_eq]
    exact (frame_foldl_merge _ s.age).1
  · rfl

theorem published_cycle (s : Snapshot) (listing : String) (stamp : Float) :
    (s.cycle listing stamp).1.published = ⟨stamp, s.published.sequence + 1⟩ := by
  have hbefore : ((listingLines listing).foldl mergeLine (s.age, {})).1.published =
      s.published := by
    rw [foldl_mergeLine]
    exact (frame_foldl_merge _ s.age).2
  rw [← hbefore]
  rfl

/-- How a flow stands after any rounds follows from what they say of it, in their order. -/
theorem liveness?_rounds (s : Snapshot) (rs : List Round) (id : FlowId) :
    (s.rounds rs).liveness? id =
      (rs.filterMap (Round.news? id)).foldl (Liveness.hear s.grace) (s.liveness? id) := by
  induction rs generalizing s with
  | nil => rfl
  | cons r rest ih =>
      have hall : s.rounds (r :: rest) = (s.round r).rounds rest := rfl
      rw [hall, ih, liveness?_round, grace_round, List.filterMap_cons]
      cases r.news? id <;> rfl

/-- A flow that none of the rounds after a listing names again outlives as many of them as its
lease. -/
theorem isSome_liveness?_rounds_iff {before after : List Round} {r : Round} {timeout : Nat}
    (hr : r.Names id timeout) (hafter : ∀ q ∈ after, ∀ other, ¬ q.Names id other) :
    ((s.rounds (before ++ r :: after)).liveness? id).isSome ↔
      after.countP Round.succeeded ≤ timeout + s.grace + 2 := by
  have hnone : ∀ heard ∈ after.filterMap (Round.news? id), heard = none := by
    intro heard hmem
    obtain ⟨q, hq, hnews⟩ := List.mem_filterMap.mp hmem
    cases heard with
    | none => rfl
    | some other => exact absurd hnews (hafter q hq other)
  have hnews : r.news? id = some (some timeout) := hr
  rw [liveness?_rounds, List.filterMap_append, List.filterMap_cons, hnews, List.foldl_append,
    List.foldl_cons, Liveness.isSome_foldl_hear_iff hnone, Round.length_filterMap_news?]
  simp [Liveness.hear, Liveness.lease]

theorem sequence_rounds (s : Snapshot) (rs : List Round) :
    (s.rounds rs).published.sequence = s.published.sequence + rs.countP Round.succeeded := by
  induction rs generalizing s with
  | nil => rfl
  | cons r rest ih =>
      have hall : s.rounds (r :: rest) = (s.round r).rounds rest := rfl
      rw [hall, ih, List.countP_cons]
      obtain ⟨answer, stamp⟩ := r
      cases answer with
      | error failure => simp [round, Round.succeeded, Except.toOption]
      | ok listing =>
          have hpublished : (s.round ⟨.ok listing, stamp⟩).published =
              ⟨stamp, s.published.sequence + 1⟩ := published_cycle s listing stamp
          simp [hpublished, Round.succeeded, Except.toOption]
          omega

theorem stamp_rounds (s : Snapshot) (rs : List Round) :
    (s.rounds rs).published.stamp =
      ((rs.filter Round.succeeded).getLast?.map Round.stamp).getD s.published.stamp := by
  induction rs using List.reverseRecOn with
  | nil => rfl
  | append_singleton rs r ih =>
      have hall : s.rounds (rs ++ [r]) = (s.rounds rs).round r := List.foldl_append
      rw [hall, List.filter_append]
      obtain ⟨answer, stamp⟩ := r
      cases answer with
      | error failure => simpa [round, Round.succeeded, Except.toOption] using ih
      | ok listing =>
          have hpublished :
              ((s.rounds rs).round ⟨.ok listing, stamp⟩).published.stamp = stamp := rfl
          simp [hpublished, Round.succeeded, Except.toOption]

/-- After any rounds of the sampler, a flow is alive if and only if some listing named it and, from
the last of these on, no more listings followed than its timeout, the grace and two cycles. Nothing
else in the rounds matters for it, and the publication tells how many listings there were and when
the last one was asked for. -/
theorem isLive_rounds_iff (grace : Nat) (rs : List Round) (id : FlowId) :
    ((rounds { grace } rs).isLive id = true ↔
        ∃ before r after timeout, rs = before ++ r :: after ∧ r.Names id timeout ∧
          (∀ q ∈ after, ∀ other, ¬ q.Names id other) ∧
          after.countP Round.succeeded ≤ timeout + grace + 2) ∧
      (∀ others : List Round,
        others.filterMap (Round.news? id) = rs.filterMap (Round.news? id) →
          (rounds { grace } others).isLive id = (rounds { grace } rs).isLive id) ∧
      (rounds { grace } rs).published.sequence = rs.countP Round.succeeded ∧
      (rounds { grace } rs).published.stamp =
        ((rs.filter Round.succeeded).getLast?.map Round.stamp).getD 0.0 := by
  refine ⟨?_, ?_, ?_, stamp_rounds { grace } rs⟩
  · rw [isLive_eq_isSome]
    constructor
    · intro hlive
      rcases Round.exists_last_names id rs with hnone | ⟨before, r, after, timeout, rfl, hr, hafter⟩
      · have hheard : ∀ heard ∈ rs.filterMap (Round.news? id), heard = none := by
          intro heard hmem
          obtain ⟨q, hq, hnews⟩ := List.mem_filterMap.mp hmem
          cases heard with
          | none => rfl
          | some other => exact absurd hnews (hnone q hq other)
        rw [liveness?_rounds, Liveness.isSome_foldl_hear_iff hheard] at hlive
        obtain ⟨l, hl, _⟩ := hlive
        cases hl
      · exact ⟨before, r, after, timeout, rfl, hr, hafter,
          (isSome_liveness?_rounds_iff hr hafter).mp hlive⟩
    · rintro ⟨before, r, after, timeout, rfl, hr, hafter, hcount⟩
      exact (isSome_liveness?_rounds_iff hr hafter).mpr hcount
  · intro others hothers
    rw [isLive_eq_isSome, isLive_eq_isSome, liveness?_rounds, liveness?_rounds, hothers]
  · rw [sequence_rounds]
    exact Nat.zero_add _

end Snapshot

end FlowVerdict.Kernel
