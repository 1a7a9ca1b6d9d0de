/-!
# Tables

A finite map as the list of its entries, no key twice, in the order in which a pass visits them. The
answers of a table do not depend on that order; what a pass does may, so the order is data and not
hidden in a hash. An entry that is set goes to the end.
-/

namespace FlowVerdict

/-- A finite map from `κ` to `α`. -/
structure Table (κ α : Type) where
  entries : List (κ × α)
  nodup : (entries.map Prod.fst).Nodup

namespace Table

variable {κ α β : Type}

def empty : Table κ α :=
  ⟨[], List.nodup_nil⟩

instance : Inhabited (Table κ α) := ⟨empty⟩

def keys (t : Table κ α) : List κ :=
  t.entries.map Prod.fst

def values (t : Table κ α) : List α :=
  t.entries.map Prod.snd

def size (t : Table κ α) : Nat :=
  t.entries.length

def isEmpty (t : Table κ α) : Bool :=
  t.entries.isEmpty

/-- The table of those entries that `f` keeps, with the values it gives them. -/
def filterMap (f : κ → α → Option β) (t : Table κ α) : Table κ β where
  entries := t.entries.filterMap fun (k, v) => (f k v).map (k, ·)
  nodup := by
    have h : (t.entries.filterMap fun (k, v) => (f k v).map (k, ·)).map Prod.fst =
        (t.entries.filter fun (k, v) => (f k v).isSome).map Prod.fst := by
      induction t.entries with
      | nil => rfl
      | cons entry rest ih =>
        obtain ⟨k, v⟩ := entry
        cases hf : f k v <;> simp [hf, ih]
    rw [h]
    exact (List.Sublist.map Prod.fst List.filter_sublist).nodup t.nodup

variable [DecidableEq κ]

def get? (t : Table κ α) (k : κ) : Option α :=
  (t.entries.find? fun entry => entry.1 = k).map Prod.snd

def contains (t : Table κ α) (k : κ) : Bool :=
  t.entries.any fun entry => entry.1 = k

def erase (t : Table κ α) (k : κ) : Table κ α where
  entries := t.entries.filter fun entry => entry.1 ≠ k
  nodup := (List.Sublist.map Prod.fst List.filter_sublist).nodup t.nodup

/-- No entry of an erased key is left. -/
theorem not_mem_keys_erase (t : Table κ α) (k : κ) : k ∉ (t.erase k).keys := by
  simp [keys, erase]

def insert (t : Table κ α) (k : κ) (v : α) : Table κ α where
  entries := (t.erase k).entries ++ [(k, v)]
  nodup := by
    rw [List.map_append, List.nodup_append]
    refine ⟨(t.erase k).nodup, by simp, fun a ha b hb => ?_⟩
    simp only [List.map_cons, List.map_nil, List.mem_singleton] at hb
    rintro rfl
    exact t.not_mem_keys_erase k (hb ▸ ha)

/-- The table with the value of a key, if it has one, changed by `f`. -/
def modify (t : Table κ α) (k : κ) (f : α → α) : Table κ α where
  entries := t.entries.map fun entry => if entry.1 = k then (entry.1, f entry.2) else entry
  nodup := by
    have h : (t.entries.map fun entry => if entry.1 = k then (entry.1, f entry.2) else entry).map
        Prod.fst = t.entries.map Prod.fst := by
      rw [List.map_map]
      refine List.map_congr_left fun entry _ => ?_
      simp only [Function.comp_apply]
      split <;> rfl
    rw [h]
    exact t.nodup

/-- The table without the entries of several keys. -/
def eraseAll (t : Table κ α) (ks : List κ) : Table κ α :=
  ks.foldl erase t

/-- What a table answers for a key that was just set. -/
theorem get?_insert_self (t : Table κ α) (k : κ) (v : α) : (t.insert k v).get? k = some v := by
  have h : ((t.erase k).entries.find? fun entry => entry.1 = k) = none := by
    simp [erase]
  simp [get?, insert, List.find?_append, h]

/-- Setting a key changes the answer for no other. -/
theorem get?_insert_of_ne (t : Table κ α) {k k' : κ} (v : α) (h : k' ≠ k) :
    (t.insert k v).get? k' = t.get? k' := by
  have hne : ¬ k = k' := fun e => h e.symm
  simp only [get?, insert, erase, List.find?_append, List.find?_filter]
  congr 1
  rw [show ([(k, v)].find? fun entry => decide (entry.1 = k')) = none by simp [hne],
    Option.or_none]
  congr 1
  funext entry
  by_cases he : entry.1 = k'
  · simp [he, h]
  · simp [he]

/-- An erased key has no value. -/
theorem get?_erase_self (t : Table κ α) (k : κ) : (t.erase k).get? k = none := by
  simp [get?, erase]

end Table

end FlowVerdict
