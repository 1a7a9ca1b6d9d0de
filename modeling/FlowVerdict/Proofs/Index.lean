import FlowVerdict.Proofs.Table

/-!
# The index of the pending SYNs

The index names, under each relaxed key, exactly the pending flows with that key, in their order,
and it has no key without flows. Filing a SYN and taking one keep it so.
-/

namespace FlowVerdict

theorem FlowId.ext_text {a b : FlowId} (h : a.text = b.text) : a = b := by
  cases a
  cases b
  exact congrArg FlowId.mk h

namespace SynTable

/-- The flows that an index names under a relaxed key. -/
def flowsOf (index : Table RelaxedKey (List FlowId)) (key : RelaxedKey) : List FlowId :=
  (index.get? key).getD []

/-- Flows in the order of their texts, none of them twice. -/
def Ordered (ids : List FlowId) : Prop :=
  ids.Pairwise fun a b => a.text < b.text

/-- An index that names exactly the flows of `stored`. -/
structure Lists (index : Table RelaxedKey (List FlowId)) (stored : FlowId → Prop) : Prop where
  mem_iff : ∀ key id, id ∈ flowsOf index key ↔ stored id ∧ id.relaxed = key
  ordered : ∀ key, Ordered (flowsOf index key)
  no_empty : ∀ key, index.get? key ≠ some []

def Indexed (t : SynTable) : Prop :=
  Lists t.index fun id => ∃ syn, t.get? id = some syn

variable {index : Table RelaxedKey (List FlowId)} {stored stored' : FlowId → Prop} {id : FlowId}
  {ids : List FlowId} {t rest : SynTable} {syn : Syn}

theorem text_lt_of_not_le {a b : FlowId} (h : ¬ a.le b = true) : b.text < a.text := by
  apply String.not_le.mp
  simpa only [FlowId.le, decide_eq_true_eq] using h

theorem text_lt_of_le_of_ne {a b : FlowId} (hle : a.le b = true) (hne : a ≠ b) :
    a.text < b.text := by
  have hle : a.text ≤ b.text := by simpa only [FlowId.le, decide_eq_true_eq] using hle
  by_contra hnot
  exact hne (FlowId.ext_text (String.le_antisymm hle (String.not_lt.mp hnot)))

theorem mem_addFlow {other : FlowId} : other ∈ addFlow id ids ↔ other = id ∨ other ∈ ids := by
  induction ids with
  | nil => simp [addFlow]
  | cons first rest ih =>
      rw [addFlow]
      split
      · next heq =>
          rw [heq, List.mem_cons]
          tauto
      · split
        · rw [List.mem_cons]
        · rw [List.mem_cons, ih, List.mem_cons]
          tauto

theorem addFlow_ne_nil : addFlow id ids ≠ [] :=
  List.ne_nil_of_mem (mem_addFlow.mpr (Or.inl rfl))

theorem Ordered.addFlow (h : Ordered ids) : Ordered (addFlow id ids) := by
  induction ids with
  | nil => exact List.pairwise_singleton _ id
  | cons first rest ih =>
      obtain ⟨hfirst, hrest⟩ := List.pairwise_cons.mp h
      rw [SynTable.addFlow]
      split
      · exact h
      · next hne =>
          split
          · next hle =>
              have hlt := text_lt_of_le_of_ne hle hne
              apply List.pairwise_cons.mpr
              refine ⟨fun other hmem => ?_, h⟩
              rcases List.mem_cons.mp hmem with rfl | hmem
              · exact hlt
              · exact String.lt_trans hlt (hfirst other hmem)
          · next hnle =>
              apply List.pairwise_cons.mpr
              refine ⟨fun other hmem => ?_, ih hrest⟩
              rcases mem_addFlow.mp hmem with rfl | hmem
              · exact text_lt_of_not_le hnle
              · exact hfirst other hmem

theorem Ordered.nodup (h : Ordered ids) : ids.Nodup := by
  apply List.Pairwise.imp _ h
  rintro a b hlt rfl
  exact String.lt_irrefl a.text hlt

theorem lists_empty : Lists .empty fun _ => False where
  mem_iff key id := by simp [flowsOf]
  ordered key := List.Pairwise.nil
  no_empty key := by simp

theorem Lists.congr (h : Lists index stored) (heq : ∀ id, stored' id ↔ stored id) :
    Lists index stored' where
  mem_iff key id := by rw [h.mem_iff, heq]
  ordered := h.ordered
  no_empty := h.no_empty

theorem flowsOf_enter (key : RelaxedKey) : flowsOf (enter index id) key =
    if key = id.relaxed then addFlow id (flowsOf index key) else flowsOf index key := by
  rw [flowsOf, enter, Table.get?_insert]
  split
  · next heq => rw [heq, Option.getD_some, flowsOf]
  · rfl

theorem Lists.enter (h : Lists index stored) :
    Lists (enter index id) fun other => other = id ∨ stored other where
  mem_iff key other := by
    rw [flowsOf_enter]
    split
    · next heq =>
        rw [mem_addFlow, h.mem_iff]
        constructor
        · rintro (rfl | ⟨hstored, hkey⟩)
          · exact ⟨Or.inl rfl, heq.symm⟩
          · exact ⟨Or.inr hstored, hkey⟩
        · rintro ⟨rfl | hstored, hkey⟩
          · exact Or.inl rfl
          · exact Or.inr ⟨hstored, hkey⟩
    · next hne =>
        rw [h.mem_iff]
        constructor
        · rintro ⟨hstored, hkey⟩
          exact ⟨Or.inr hstored, hkey⟩
        · rintro ⟨rfl | hstored, hkey⟩
          · exact absurd hkey.symm hne
          · exact ⟨hstored, hkey⟩
  ordered key := by
    rw [flowsOf_enter]
    split
    · exact (h.ordered key).addFlow
    · exact h.ordered key
  no_empty key := by
    rw [SynTable.enter, Table.get?_insert]
    split
    · simpa using addFlow_ne_nil
    · exact h.no_empty key

theorem get?_leave (key : RelaxedKey) : (leave index id).get? key =
    if key = id.relaxed then
      if (flowsOf index key).erase id = [] then none else some ((flowsOf index key).erase id)
    else index.get? key := by
  by_cases hkey : key = id.relaxed
  · rw [if_pos hkey, hkey, flowsOf, leave]
    split
    · next hnone => simp [hnone]
    · next ids hsome =>
        simp only [hsome, Option.getD_some]
        split
        · next hnil => rw [Table.get?_erase_self, if_pos hnil]
        · next hne => rw [Table.get?_insert_self, if_neg hne]
  · rw [if_neg hkey, leave]
    split
    · rfl
    · split
      · rw [Table.get?_erase, if_neg hkey]
      · exact Table.get?_insert_of_ne _ _ hkey

theorem flowsOf_leave (key : RelaxedKey) : flowsOf (leave index id) key =
    if key = id.relaxed then (flowsOf index key).erase id else flowsOf index key := by
  rw [flowsOf, get?_leave]
  split
  · split
    · next hnil => rw [hnil, Option.getD_none]
    · rw [Option.getD_some]
  · rfl

theorem Lists.leave (h : Lists index stored) :
    Lists (leave index id) fun other => other ≠ id ∧ stored other where
  mem_iff key other := by
    rw [flowsOf_leave]
    split
    · rw [(h.ordered key).nodup.mem_erase_iff, h.mem_iff, and_assoc]
    · next hne =>
        rw [h.mem_iff, and_assoc]
        constructor
        · rintro ⟨hstored, hkey⟩
          exact ⟨fun heq => hne (heq ▸ hkey.symm), hstored, hkey⟩
        · rintro ⟨_, hstored, hkey⟩
          exact ⟨hstored, hkey⟩
  ordered key := by
    rw [flowsOf_leave]
    split
    · exact List.Pairwise.sublist List.erase_sublist (h.ordered key)
    · exact h.ordered key
  no_empty key := by
    rw [get?_leave]
    split
    · split
      · simp
      · next hne => simpa using hne
    · exact h.no_empty key

theorem indexed_empty : Indexed {} :=
  lists_empty.congr fun id => by simp [get?]

theorem Indexed.insert (h : t.Indexed) : (t.insert id syn).Indexed := by
  apply (Lists.enter h).congr
  intro other
  rw [get?, SynTable.insert, Table.get?_insert]
  by_cases heq : other = id
  · simp [heq]
  · simp [heq, get?]

theorem Indexed.modify (h : t.Indexed) (f : Syn → Syn) : (t.modify id f).Indexed := by
  apply Lists.congr h
  intro other
  rw [get?, SynTable.modify, Table.get?_modify]
  by_cases heq : other = id
  · simp [heq, get?]
  · simp [heq, get?]

theorem Indexed.take? (h : t.Indexed) (htake : t.take? id = some (syn, rest)) : rest.Indexed := by
  obtain ⟨found, _, heq⟩ := Option.map_eq_some_iff.mp htake
  obtain ⟨rfl, rfl⟩ := Prod.mk.inj heq
  apply (Lists.leave h).congr
  intro other
  rw [get?, Table.get?_erase]
  by_cases heq : other = id
  · simp [heq]
  · simp [heq, get?]

theorem takeRelaxed?_eq_some_iff {key : RelaxedKey} :
    t.takeRelaxed? key = some (id, syn, rest) ↔
      ∃ time, t.oldest? (flowsOf t.index key) = some (id, time) ∧
        t.take? id = some (syn, rest) := by
  simp only [takeRelaxed?, Option.bind_eq_bind, Option.bind_eq_some_iff, Option.some.injEq,
    Prod.exists, Prod.mk.injEq, flowsOf]
  constructor
  · rintro ⟨ids, hids, oldest, time, holdest, taken, left, htake, rfl, rfl, rfl⟩
    rw [hids]
    exact ⟨time, holdest, htake⟩
  · rintro ⟨time, holdest, htake⟩
    cases hids : t.index.get? key with
    | none =>
        rw [hids, Option.getD_none, oldest?] at holdest
        cases holdest
    | some ids =>
        rw [hids] at holdest
        exact ⟨ids, rfl, id, time, holdest, syn, rest, htake, rfl, rfl, rfl⟩

theorem mem_of_oldest?_eq_some {time : Float} (h : t.oldest? ids = some (id, time)) : id ∈ ids := by
  induction ids generalizing id time with
  | nil => cases h
  | cons first rest ih =>
      rw [oldest?] at h
      split at h
      · exact List.mem_cons_of_mem first (ih h)
      · cases h
        exact List.mem_cons_self
      · next hrest =>
          split at h
          · cases h
            exact List.mem_cons_self
          · cases h
            exact List.mem_cons_of_mem first (ih hrest)

/-- A guess takes a flow with the key that was asked for, and leaves the index in step. -/
theorem Indexed.takeRelaxed? {key : RelaxedKey} (h : t.Indexed)
    (htake : t.takeRelaxed? key = some (id, syn, rest)) : id.relaxed = key ∧ rest.Indexed := by
  obtain ⟨time, holdest, htake⟩ := takeRelaxed?_eq_some_iff.mp htake
  exact ⟨((h.mem_iff key id).mp (mem_of_oldest?_eq_some holdest)).2, h.take? htake⟩

end SynTable

end FlowVerdict
