import FlowVerdict.Flow
import Mathlib.Data.List.Basic
import Mathlib.Tactic.SplitIfs

/-!
# The byte order of texts

Texts are ordered character by character. UTF-8 writes a larger character with larger bytes, so the
order of the texts is also the order of their bytes.
-/

namespace FlowVerdict.Text

def charBytes (c : Char) : List Nat :=
  (String.utf8EncodeChar c).map UInt8.toNat

def bytes (text : String) : List Nat :=
  text.toUTF8.data.toList.map UInt8.toNat

theorem bytes_eq_flatMap (text : String) : bytes text = text.toList.flatMap charBytes := by
  rw [bytes, String.toUTF8_eq_toByteArray, ← String.utf8Encode_toList, List.utf8Encode.eq_1,
    List.toList_data_toByteArray, List.map_flatMap]
  rfl

/-- A leading byte, marked by `lead`, and `k` continuation bytes of six bits of the number each. -/
def sextets (lead : Nat) : Nat → Nat → List Nat
  | 0, n => [lead + n]
  | k + 1, n => sextets lead k (n / 64) ++ [n % 64 + 128]

/-- What is left of a number for its leading byte. -/
def leading : Nat → Nat → Nat
  | 0, n => n
  | k + 1, n => leading k (n / 64)

theorem sextets_eq_cons (lead k n : Nat) :
    ∃ rest, sextets lead k n = (lead + leading k n) :: rest := by
  induction k generalizing n with
  | zero => exact ⟨[], rfl⟩
  | succ k ih =>
      obtain ⟨rest, hrest⟩ := ih (n / 64)
      exact ⟨rest ++ [n % 64 + 128], by rw [sextets, hrest, List.cons_append, leading]⟩

/-- Among numbers of one width, the bytes of the larger one are larger, whatever follows them. -/
theorem sextets_append_lt (lead k : Nat) {m n : Nat} (h : m < n) (xs ys : List Nat) :
    sextets lead k m ++ xs < sextets lead k n ++ ys := by
  induction k generalizing m n xs ys with
  | zero =>
      simp only [sextets, List.singleton_append, List.cons_lt_cons_iff]
      omega
  | succ k ih =>
      rw [sextets, sextets, List.append_assoc, List.append_assoc]
      by_cases hquotient : m / 64 < n / 64
      · exact ih hquotient _ _
      · have heq : m / 64 = n / 64 := by omega
        rw [heq]
        apply List.append_left_lt
        rw [List.singleton_append, List.singleton_append, List.cons_lt_cons_iff]
        omega

/-- The width of a character and its leading byte go by its place in four ranges. -/
theorem charBytes_eq (c : Char) : ∃ lead k, charBytes c = sextets lead k c.val.toNat ∧
    (c.val.toNat < 0x80 ∧ lead = 0 ∧ k = 0 ∨
      (0x80 ≤ c.val.toNat ∧ c.val.toNat < 0x800) ∧ lead = 192 ∧ k = 1 ∨
      (0x800 ≤ c.val.toNat ∧ c.val.toNat < 0x10000) ∧ lead = 224 ∧ k = 2 ∨
      0x10000 ≤ c.val.toNat ∧ lead = 240 ∧ k = 3) := by
  have hvalid : c.val.toNat < 0x110000 := by
    have hvalid := c.valid
    simp only [UInt32.isValidChar, Nat.isValidChar] at hvalid
    omega
  simp only [charBytes, String.utf8EncodeChar]
  generalize c.val.toNat = n at *
  split_ifs with hone htwo hthree
  · refine ⟨0, 0, ?_, by omega⟩
    simp [sextets]
    omega
  · refine ⟨192, 1, ?_, by omega⟩
    simp [sextets]
    omega
  · refine ⟨224, 2, ?_, by omega⟩
    simp [sextets, Nat.div_div_eq_div_mul]
    omega
  · refine ⟨240, 3, ?_, by omega⟩
    simp [sextets, Nat.div_div_eq_div_mul]
    omega

theorem charBytes_append_lt {c d : Char} (h : c < d) (xs ys : List Nat) :
    charBytes c ++ xs < charBytes d ++ ys := by
  have hlt : c.val.toNat < d.val.toNat := h
  obtain ⟨lead, k, hc, hcase⟩ := charBytes_eq c
  obtain ⟨lead', k', hd, hcase'⟩ := charBytes_eq d
  rw [hc, hd]
  by_cases hwidth : k = k'
  · have hlead : lead = lead' := by omega
    rw [hwidth, hlead]
    exact sextets_append_lt lead' k' hlt xs ys
  · obtain ⟨rest, hrest⟩ := sextets_eq_cons lead k c.val.toNat
    obtain ⟨rest', hrest'⟩ := sextets_eq_cons lead' k' d.val.toNat
    rw [hrest, hrest', List.cons_append, List.cons_append, List.cons_lt_cons_iff]
    left
    rcases hcase with ⟨_, rfl, rfl⟩ | ⟨_, rfl, rfl⟩ | ⟨_, rfl, rfl⟩ | ⟨_, rfl, rfl⟩ <;>
      rcases hcase' with ⟨_, rfl, rfl⟩ | ⟨_, rfl, rfl⟩ | ⟨_, rfl, rfl⟩ | ⟨_, rfl, rfl⟩ <;>
      simp only [leading] <;> omega

theorem bytes_lt {a b : String} (h : a < b) : bytes a < bytes b := by
  rw [bytes_eq_flatMap, bytes_eq_flatMap]
  rw [String.lt_iff] at h
  generalize a.toList = cs at h
  generalize b.toList = ds at h
  induction cs generalizing ds with
  | nil =>
      cases ds with
      | nil => exact absurd h (List.not_lt_nil _)
      | cons d ds =>
          obtain ⟨lead, k, hd, _⟩ := charBytes_eq d
          obtain ⟨rest, hrest⟩ := sextets_eq_cons lead k d.val.toNat
          rw [List.flatMap_cons, hd, hrest, List.cons_append]
          exact List.nil_lt_cons _ _
  | cons c cs ih =>
      cases ds with
      | nil => exact absurd h (List.not_lt_nil _)
      | cons d ds =>
          rw [List.flatMap_cons, List.flatMap_cons]
          rcases List.cons_lt_cons_iff.mp h with hlt | ⟨rfl, htail⟩
          · exact charBytes_append_lt hlt _ _
          · exact List.append_left_lt (ih ds htail)

theorem bytes_lt_iff {a b : String} : bytes a < bytes b ↔ a < b := by
  constructor
  · intro hbytes
    by_contra hnot
    by_cases heq : b = a
    · rw [heq] at hbytes
      exact List.lt_irrefl _ hbytes
    · have hlt : b < a := by
        by_contra hnot'
        exact heq (String.le_antisymm (String.not_lt.mp hnot) (String.not_lt.mp hnot'))
      exact List.lt_asymm hbytes (bytes_lt hlt)
  · exact bytes_lt

end FlowVerdict.Text
