import FlowVerdict.SynTable
import Mathlib.Data.List.Nodup

/-!
# Laws of tables

What a table answers after each of its operations, and how the operations move its values. No law
depends on the order of the entries: a table is known by its answers, and as a collection of values
up to a permutation. From the table of pending SYNs exactly the entry of a flow goes, whether the
flow was named or found through the index.
-/

namespace FlowVerdict.Table

variable {κ α β : Type}

theorem nodup_keys (t : Table κ α) : t.keys.Nodup :=
  t.nodup

theorem mem_keys_of_mem {t : Table κ α} {k : κ} {v : α} (h : (k, v) ∈ t.entries) :
    k ∈ t.keys :=
  List.mem_map.mpr ⟨(k, v), h, rfl⟩

/-- A key determines its entry. -/
theorem eq_of_mem_entries {t : Table κ α} {k : κ} {v w : α} (hv : (k, v) ∈ t.entries)
    (hw : (k, w) ∈ t.entries) : v = w := by
  have heq := List.inj_on_of_nodup_map t.nodup hv hw rfl
  exact (Prod.mk.inj heq).2

theorem size_eq_length_values (t : Table κ α) : t.size = t.values.length :=
  (List.length_map _).symm

variable [DecidableEq κ]

@[simp] theorem get?_empty (k : κ) : (empty : Table κ α).get? k = none :=
  rfl

/-- The answers of a table are its entries. -/
theorem mem_entries_iff {t : Table κ α} {k : κ} {v : α} :
    (k, v) ∈ t.entries ↔ t.get? k = some v := by
  constructor
  · intro hmem
    cases hfind : t.entries.find? fun entry => entry.1 = k with
    | none =>
        have hne := List.find?_eq_none.mp hfind (k, v) hmem
        simp at hne
    | some entry =>
        have hkey : entry.1 = k := by simpa using List.find?_some hfind
        have hentry : (k, entry.2) ∈ t.entries := by
          rw [← hkey]
          exact List.mem_of_find?_eq_some hfind
        rw [get?, hfind, Option.map_some, eq_of_mem_entries hmem hentry]
  · intro hget
    obtain ⟨entry, hfind, rfl⟩ := Option.map_eq_some_iff.mp hget
    have hkey : entry.1 = k := by simpa using List.find?_some hfind
    rw [← hkey]
    exact List.mem_of_find?_eq_some hfind

/-- The answers do not depend on the order of the entries. -/
theorem get?_eq_of_perm {t t' : Table κ α} (h : t'.entries.Perm t.entries) (k : κ) :
    t'.get? k = t.get? k := by
  ext v
  rw [← mem_entries_iff, ← mem_entries_iff, h.mem_iff]

theorem get?_eq_none_iff {t : Table κ α} {k : κ} : t.get? k = none ↔ k ∉ t.keys := by
  rw [get?, Option.map_eq_none_iff, List.find?_eq_none]
  simp only [keys, List.mem_map, decide_eq_true_eq, not_exists, not_and]

theorem isEmpty_iff {t : Table κ α} : t.isEmpty = true ↔ ∀ k, t.get? k = none := by
  rw [isEmpty, List.isEmpty_iff]
  constructor
  · intro h k
    rw [get?, h, List.find?_nil, Option.map_none]
  · intro h
    refine List.eq_nil_iff_forall_not_mem.mpr fun entry hmem => ?_
    exact get?_eq_none_iff.mp (h entry.1) (mem_keys_of_mem hmem)

theorem mem_keys_iff {t : Table κ α} {k : κ} : k ∈ t.keys ↔ ∃ v, t.get? k = some v := by
  rw [← Option.isSome_iff_exists, Option.isSome_iff_ne_none, ne_eq, get?_eq_none_iff, not_not]

theorem contains_eq_isSome (t : Table κ α) (k : κ) : t.contains k = (t.get? k).isSome := by
  rw [get?, Option.isSome_map, contains, Bool.eq_iff_iff, List.find?_isSome, List.any_eq_true]

theorem mem_values_iff {t : Table κ α} {v : α} : v ∈ t.values ↔ ∃ k, t.get? k = some v := by
  simp only [values, List.mem_map, Prod.exists, exists_eq_right, mem_entries_iff]

theorem get?_insert (t : Table κ α) (k k' : κ) (v : α) :
    (t.insert k v).get? k' = if k' = k then some v else t.get? k' := by
  split
  · next h => rw [h, get?_insert_self]
  · next h => exact t.get?_insert_of_ne v h

theorem get?_erase (t : Table κ α) (k k' : κ) :
    (t.erase k).get? k' = if k' = k then none else t.get? k' := by
  split
  · next h => rw [h, get?_erase_self]
  · next h =>
      ext v
      simp [← mem_entries_iff, erase, h]

theorem get?_modify (t : Table κ α) (k k' : κ) (f : α → α) :
    (t.modify k f).get? k' = if k' = k then (t.get? k).map f else t.get? k' := by
  ext v
  rw [← mem_entries_iff]
  simp only [modify, List.mem_map, Prod.exists]
  constructor
  · rintro ⟨key, value, hmem, heq⟩
    split at heq
    · next hkey =>
        obtain ⟨rfl, rfl⟩ := Prod.mk.inj heq
        subst hkey
        simp [mem_entries_iff.mp hmem]
    · next hkey =>
        obtain ⟨rfl, rfl⟩ := Prod.mk.inj heq
        simpa [hkey] using mem_entries_iff.mp hmem
  · intro h
    split at h
    · next hkey =>
        obtain ⟨value, hget, rfl⟩ := Option.map_eq_some_iff.mp h
        exact ⟨k, value, mem_entries_iff.mpr hget, by simp [hkey]⟩
    · next hkey => exact ⟨k', v, mem_entries_iff.mpr h, by simp [hkey]⟩

theorem get?_filterMap (t : Table κ α) (f : κ → α → Option β) (k : κ) :
    (t.filterMap f).get? k = (t.get? k).bind (f k) := by
  ext w
  rw [← mem_entries_iff]
  simp only [filterMap, List.mem_filterMap, Prod.exists, Option.map_eq_some_iff, Prod.mk.injEq]
  constructor
  · rintro ⟨key, value, hmem, out, hf, rfl, rfl⟩
    rw [mem_entries_iff.mp hmem, Option.bind_some, hf]
  · intro h
    obtain ⟨value, hget, hf⟩ := Option.bind_eq_some_iff.mp h
    exact ⟨k, value, mem_entries_iff.mpr hget, w, hf, rfl, rfl⟩

theorem get?_eraseAll (t : Table κ α) (ks : List κ) (k : κ) :
    (t.eraseAll ks).get? k = if k ∈ ks then none else t.get? k := by
  induction ks generalizing t with
  | nil => simp [eraseAll]
  | cons head tail ih =>
      have hstep : (t.eraseAll (head :: tail)) = (t.erase head).eraseAll tail := rfl
      rw [hstep, ih, get?_erase]
      by_cases hhead : k = head
      · simp [hhead]
      · simp [hhead]

/-- What an erased entry was changed to before does not matter. -/
theorem erase_modify (t : Table κ α) (k : κ) (f : α → α) : (t.modify k f).erase k = t.erase k := by
  have hentries : ((t.modify k f).erase k).entries = (t.erase k).entries := by
    simp only [erase, modify]
    induction t.entries with
    | nil => rfl
    | cons entry rest ih =>
        by_cases h : entry.1 = k
        · simpa [h] using ih
        · simpa [h] using ih
  simpa only [erase, mk.injEq] using hentries

/-- A value that is changed to itself changes nothing. -/
theorem modify_eq_self {t : Table κ α} {k : κ} {f : α → α}
    (h : ∀ v, t.get? k = some v → f v = v) : t.modify k f = t := by
  have hentries : (t.modify k f).entries = t.entries := by
    refine (List.map_congr_left fun entry hmem => ?_).trans (List.map_id _)
    split
    · next hkey =>
        have hget := mem_entries_iff.mp hmem
        rw [h entry.2 (hkey ▸ hget)]
        rfl
    · rfl
  cases t
  simp only [modify, mk.injEq]
  exact hentries

/-- It does not matter which of two keys is erased first. -/
theorem erase_comm (t : Table κ α) (k k' : κ) : (t.erase k).erase k' = (t.erase k').erase k := by
  have hentries : ((t.erase k).erase k').entries = ((t.erase k').erase k).entries := by
    simp only [erase, List.filter_filter, Bool.and_comm]
  simpa only [erase, mk.injEq] using hentries

/-- Tables with the same entries have the same entries when a key is erased. -/
theorem perm_erase {t t' : Table κ α} (h : t'.entries.Perm t.entries) (k : κ) :
    (t'.erase k).entries.Perm (t.erase k).entries :=
  h.filter _

theorem erase_eq_of_get?_eq_none {t : Table κ α} {k : κ} (h : t.get? k = none) :
    t.erase k = t := by
  have hentries : (t.erase k).entries = t.entries := by
    refine List.filter_eq_self.mpr fun entry hmem => ?_
    have hne : entry.1 ≠ k := fun heq =>
      get?_eq_none_iff.mp h (heq ▸ mem_keys_of_mem (v := entry.2) hmem)
    simpa using hne
  cases t
  simp only [erase, mk.injEq]
  exact hentries

/-- Without the entry of a key, a table has one value less. -/
theorem values_perm_of_get? {t : Table κ α} {k : κ} {v : α} (h : t.get? k = some v) :
    t.values.Perm (v :: (t.erase k).values) := by
  obtain ⟨before, after, hsplit⟩ := List.append_of_mem (mem_entries_iff.mpr h)
  have hnodup := t.nodup
  rw [hsplit] at hnodup
  simp only [List.map_append, List.map_cons, List.nodup_append, List.nodup_cons, List.mem_map,
    List.mem_cons] at hnodup
  have hbefore : before.filter (fun entry => decide (entry.1 ≠ k)) = before := by
    refine List.filter_eq_self.mpr fun entry hmem => ?_
    simpa using hnodup.2.2 entry.1 ⟨entry, hmem, rfl⟩ k (Or.inl rfl)
  have hafter : after.filter (fun entry => decide (entry.1 ≠ k)) = after := by
    refine List.filter_eq_self.mpr fun entry hmem => ?_
    simpa using fun heq : entry.1 = k => hnodup.2.1.1 ⟨entry, hmem, heq⟩
  have herase : (t.erase k).entries = before ++ after := by
    change t.entries.filter (fun entry => decide (entry.1 ≠ k)) = before ++ after
    rw [hsplit, List.filter_append, List.filter_cons_of_neg (by simp), hbefore, hafter]
  rw [values, values, hsplit, herase]
  simp only [List.map_append, List.map_cons]
  exact List.perm_middle

theorem values_insert (t : Table κ α) (k : κ) (v : α) :
    (t.insert k v).values = (t.erase k).values ++ [v] := by
  simp [values, insert]

theorem size_erase {t : Table κ α} {k : κ} {v : α} (h : t.get? k = some v) :
    (t.erase k).size + 1 = t.size := by
  rw [size_eq_length_values, size_eq_length_values, (values_perm_of_get? h).length_eq,
    List.length_cons]

/-- An entry that is set makes the table larger unless it replaces one. -/
theorem size_insert (t : Table κ α) (k : κ) (v : α) :
    (t.insert k v).size + (if t.contains k then 1 else 0) = t.size + 1 := by
  rw [size_eq_length_values, values_insert, List.length_append, ← size_eq_length_values,
    List.length_singleton, contains_eq_isSome]
  cases h : t.get? k with
  | none => rw [erase_eq_of_get?_eq_none h]; rfl
  | some old => rw [← size_erase h]; rfl

@[simp] theorem size_modify (t : Table κ α) (k : κ) (f : α → α) : (t.modify k f).size = t.size :=
  List.length_map _

/-- Changing values in a way that `g` does not see changes nothing for `g`. -/
theorem map_values_modify (t : Table κ α) (k : κ) {f : α → α} {g : α → β}
    (h : ∀ v, g (f v) = g v) : (t.modify k f).values.map g = t.values.map g := by
  simp only [values, modify, List.map_map]
  refine List.map_congr_left fun entry _ => ?_
  simp only [Function.comp_apply]
  split
  · exact h entry.2
  · rfl

end FlowVerdict.Table

namespace FlowVerdict.SynTable

variable {t rest : SynTable} {id : FlowId} {syn : Syn}

theorem of_take?_eq_some (h : t.take? id = some (syn, rest)) :
    t.get? id = some syn ∧ rest.records = t.records.erase id := by
  obtain ⟨found, hget, heq⟩ := Option.map_eq_some_iff.mp h
  obtain ⟨rfl, rfl⟩ := Prod.mk.inj heq
  exact ⟨hget, rfl⟩

theorem take?_of_get? (h : t.get? id = some syn) :
    ∃ rest, t.take? id = some (syn, rest) ∧ rest.records = t.records.erase id :=
  ⟨_, by rw [take?, show t.records.get? id = some syn from h, Option.map_some], rfl⟩

/-- A SYN that is filed makes the table larger unless it replaces one. -/
theorem size_insert (t : SynTable) (id : FlowId) (syn : Syn) :
    (t.insert id syn).size + (if t.contains id then 1 else 0) = t.size + 1 :=
  t.records.size_insert id syn

theorem take?_eq_none_iff : t.take? id = none ↔ t.get? id = none := by
  simp only [take?, get?, Option.map_eq_none_iff]

theorem of_takeRelaxed?_eq_some {key : RelaxedKey}
    (h : t.takeRelaxed? key = some (id, syn, rest)) :
    t.get? id = some syn ∧ rest.records = t.records.erase id := by
  simp only [takeRelaxed?, Option.bind_eq_bind, Option.bind_eq_some_iff, Option.some.injEq,
    Prod.exists, Prod.mk.injEq] at h
  obtain ⟨ids, _, oldest, time, _, taken, left, htake, rfl, rfl, rfl⟩ := h
  exact of_take?_eq_some htake

end FlowVerdict.SynTable
