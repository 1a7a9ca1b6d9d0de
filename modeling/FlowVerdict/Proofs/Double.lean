import Mathlib

/-!
# Doubles as numbers

A double is stored as a sign, a significand and a power of two. Its value is a real number or one of
the two infinities, and the comparisons of doubles are those of their values. What is no number has
no value and compares with nothing.
-/

namespace FlowVerdict.Double

open Float.Model (UnpackedFloat Format)
open Float.Model.UnpackedFloat (Sign)

/-- Significand and power of two as they are stored: the significand fills its 53 bits unless the
power is the least one. -/
structure Canonical (m : Nat) (e : Int) : Prop where
  lt_mantissa : m < 2 ^ 53
  le_exponent : -1074 ≤ e
  filled : 2 ^ 52 ≤ m ∨ e = -1074
  exponent_le : e ≤ 971

/-- The number that a significand and a power of two make. -/
noncomputable def magnitude (m : Nat) (e : Int) : ℝ :=
  m * (2 : ℝ) ^ e

/-- The value of a double that is taken apart. -/
noncomputable def number? : UnpackedFloat → Option EReal
  | .notANumber => none
  | .infinity .negative => some ⊥
  | .infinity .positive => some ⊤
  | .zero _ => some 0
  | .finite .negative m e _ => some (-magnitude m e : ℝ)
  | .finite .positive m e _ => some (magnitude m e : ℝ)

noncomputable def value? (x : Float) : Option EReal :=
  number? x.toModel.unpack

theorem magnitude_pos {m : Nat} (h : 0 < m) (e : Int) : 0 < magnitude m e := by
  have hm : (0 : ℝ) < m := Nat.cast_pos.mpr h
  exact mul_pos hm (zpow_pos (by norm_num) e)

theorem magnitude_nonneg (m : Nat) (e : Int) : 0 ≤ magnitude m e :=
  mul_nonneg m.cast_nonneg (zpow_nonneg (by norm_num) e)

theorem magnitude_strictMono {m n : Nat} (h : m < n) (e : Int) :
    magnitude m e < magnitude n e :=
  mul_lt_mul_of_pos_right (Nat.cast_lt.mpr h) (zpow_pos (by norm_num) e)

theorem magnitude_mul_two_pow (k s : Nat) (e : Int) :
    magnitude (k * 2 ^ s) e = magnitude k (e + s) := by
  unfold magnitude
  rw [zpow_add₀ (by norm_num), zpow_natCast]
  push_cast
  ring

theorem magnitude_le_iff {m n : Nat} {e : Int} : magnitude m e ≤ magnitude n e ↔ m ≤ n := by
  have htwo : (0 : ℝ) < 2 ^ e := zpow_pos (by norm_num) e
  rw [magnitude, magnitude, mul_le_mul_iff_left₀ htwo, Nat.cast_le]

/-- A smaller power of two makes a smaller number, whatever the significands. -/
theorem Canonical.magnitude_lt {m n : Nat} {e f : Int} (h : Canonical m e) (h' : Canonical n f)
    (hlt : e < f) : magnitude m e < magnitude n f := by
  have hfilled : 2 ^ 52 ≤ n := by
    rcases h'.filled with hn | hleast
    · exact hn
    · have hle := h.le_exponent
      omega
  have hm : (m : ℝ) < 2 ^ 53 := by exact_mod_cast h.lt_mantissa
  have hn : (2 : ℝ) ^ 52 ≤ n := by exact_mod_cast hfilled
  have htwo : (2 : ℝ) ≠ 0 := by norm_num
  calc magnitude m e < 2 ^ 53 * (2 : ℝ) ^ e :=
        mul_lt_mul_of_pos_right hm (zpow_pos (by norm_num) e)
    _ = 2 ^ 52 * (2 : ℝ) ^ (e + 1) := by
        rw [zpow_add_one₀ htwo]
        ring
    _ ≤ 2 ^ 52 * (2 : ℝ) ^ f := by
        have hpow : (2 : ℝ) ^ (e + 1) ≤ (2 : ℝ) ^ f :=
          zpow_le_zpow_right₀ (by norm_num) (by omega)
        exact mul_le_mul_of_nonneg_left hpow (by norm_num)
    _ ≤ magnitude n f := mul_le_mul_of_nonneg_right hn (zpow_nonneg (by norm_num) f)

/-- The number of a signed significand and a power of two. -/
noncomputable def signed (s : Sign) (m : Nat) (e : Int) : ℝ :=
  (s.apply m : Int) * (2 : ℝ) ^ e

theorem number?_finite (s : Sign) {m : Nat} {e : Int} (hm : 0 < m) :
    number? (.finite s m e hm) = some (signed s m e : ℝ) := by
  cases s <;> simp [number?, signed, magnitude, Sign.apply]

theorem toNat_append_one (m : BitVec 52) : (1#1 ++ m).toNat = 2 ^ 52 + m.toNat := by
  rw [BitVec.toNat_append, ← Nat.shiftLeft_add_eq_or_of_lt m.isLt]
  rfl

def exponentField (x : Float.Model) : Nat :=
  x.toBits.toNat / 2 ^ 52 % 2 ^ 11

def mantissaField (x : Float.Model) : Nat :=
  x.toBits.toNat % 2 ^ 52

theorem toNat_unpackExponent (x : Float.Model) :
    (@UnpackedFloat.unpackExponent Format.binary64 x.toBits.toBitVec).toNat = exponentField x := by
  rw [UnpackedFloat.unpackExponent_def, BitVec.extractLsb'_toNat, Nat.shiftRight_eq_div_pow]
  rfl

theorem toNat_unpackMantissa (x : Float.Model) :
    (@UnpackedFloat.unpackMantissa Format.binary64 x.toBits.toBitVec).toNat = mantissaField x := by
  rw [UnpackedFloat.unpackMantissa_def, BitVec.extractLsb'_toNat]
  rfl

/-- How significand and power of two are read off the bits. -/
theorem fields_of_unpack {x : Float.Model} {s : Sign} {m : Nat} {e : Int} {hm : 0 < m}
    (h : x.unpack = .finite s m e hm) :
    (exponentField x = 0 ∧ m = mantissaField x ∧ e = -1074) ∨
      (exponentField x ≠ 0 ∧ exponentField x ≠ 2047 ∧ m = 2 ^ 52 + mantissaField x ∧
        e = exponentField x - 1075) := by
  simp only [Float.Model.unpack, UnpackedFloat.unpack] at h
  split at h
  · split at h <;> cases h
  · next hfinite =>
      have hbelow : exponentField x ≠ 2047 := by
        intro heq
        rw [← toNat_unpackExponent] at heq
        exact hfinite (BitVec.eq_of_toNat_eq heq)
      split at h
      · next hzero =>
          split at h
          · cases h
          · cases h
            have hfield : exponentField x = 0 := by
              rw [← toNat_unpackExponent, hzero]
              rfl
            refine .inl ⟨hfield, toNat_unpackMantissa x, ?_⟩
            rw [hzero]
            rfl
      · next hnonzero =>
          cases h
          have habove : exponentField x ≠ 0 := by
            intro heq
            rw [← toNat_unpackExponent] at heq
            exact hnonzero (BitVec.eq_of_toNat_eq heq)
          refine .inr ⟨habove, hbelow, ?_, ?_⟩
          · rw [toNat_append_one, toNat_unpackMantissa]
          · rw [toNat_unpackExponent]
            rfl

theorem fields_of_zero {x : Float.Model} {s : Sign} (h : x.unpack = .zero s) :
    exponentField x = 0 ∧ mantissaField x = 0 := by
  simp only [Float.Model.unpack, UnpackedFloat.unpack] at h
  split at h
  · split at h <;> cases h
  · split at h
    · next hzero =>
        split at h
        · next hnone =>
            constructor
            · rw [← toNat_unpackExponent, hzero]
              rfl
            · rw [← toNat_unpackMantissa, hnone]
              rfl
        · cases h
    · cases h

theorem fields_of_infinity {x : Float.Model} {s : Sign} (h : x.unpack = .infinity s) :
    exponentField x = 2047 ∧ mantissaField x = 0 := by
  simp only [Float.Model.unpack, UnpackedFloat.unpack] at h
  split at h
  · next hones =>
      split at h
      · next hnone =>
          constructor
          · rw [← toNat_unpackExponent, hones]
            rfl
          · rw [← toNat_unpackMantissa, hnone]
            rfl
      · cases h
  · split at h
    · split at h <;> cases h
    · cases h

theorem canonical_of_unpack {x : Float.Model} {s : Sign} {m : Nat} {e : Int} {hm : 0 < m}
    (h : x.unpack = .finite s m e hm) : Canonical m e := by
  have hexponent : exponentField x < 2 ^ 11 := Nat.mod_lt _ (by decide)
  have hmantissa : mantissaField x < 2 ^ 52 := Nat.mod_lt _ (by decide)
  rcases fields_of_unpack h with ⟨_, rfl, rfl⟩ | ⟨hzero, hones, rfl, rfl⟩
  · exact ⟨by omega, le_rfl, .inr rfl, by decide⟩
  · exact ⟨by omega, by omega, .inl (by omega), by omega⟩

/-- Parts as they come from a double. -/
def Stored (f : UnpackedFloat) : Prop :=
  ∀ s m e hm, f = .finite s m e hm → Canonical m e

theorem stored_unpack (x : Float.Model) : Stored x.unpack :=
  fun _ _ _ _ h => canonical_of_unpack h

theorem cmp_of_cases {α : Type} [LinearOrder α] {a b : α} {o : Ordering}
    (hlt : o = .lt → a < b) (heq : o = .eq → a = b) (hgt : o = .gt → b < a) : o = cmp a b := by
  cases o with
  | lt => exact ((cmp_eq_lt_iff a b).mpr (hlt rfl)).symm
  | eq => exact ((cmp_eq_eq_iff a b).mpr (heq rfl)).symm
  | gt => exact ((cmp_eq_gt_iff a b).mpr (hgt rfl)).symm

/-- Stored parts compare like the numbers they make. -/
theorem Canonical.compare_eq {m n : Nat} {e f : Int} (h : Canonical m e) (h' : Canonical n f) :
    (compare e f).then (compare m n) = cmp (magnitude m e) (magnitude n f) := by
  rcases lt_trichotomy e f with hlt | rfl | hgt
  · rw [Int.compare_eq_lt.mpr hlt]
    exact ((cmp_eq_lt_iff _ _).mpr (h.magnitude_lt h' hlt)).symm
  · rw [Int.compare_eq_eq.mpr rfl, Ordering.eq_then]
    refine cmp_of_cases (fun hlt => ?_) (fun heq => ?_) (fun hgt => ?_)
    · exact magnitude_strictMono (Nat.compare_eq_lt.mp hlt) e
    · rw [Nat.compare_eq_eq.mp heq]
    · exact magnitude_strictMono (Nat.compare_eq_gt.mp hgt) e
  · rw [Int.compare_eq_gt.mpr hgt]
    exact ((cmp_eq_gt_iff _ _).mpr (h'.magnitude_lt h hgt)).symm

theorem compare_finite {s t : Sign} {m n : Nat} {e f : Int} {hm : 0 < m} {hn : 0 < n}
    {p q : EReal} (h : Canonical m e) (h' : Canonical n f)
    (hp : number? (.finite s m e hm) = some p) (hq : number? (.finite t n f hn) = some q) :
    UnpackedFloat.compare (.finite s m e hm) (.finite t n f hn) = some (cmp p q) := by
  have hcompare := h.compare_eq h'
  have hmpos := magnitude_pos hm e
  have hnpos := magnitude_pos hn f
  cases s <;> cases t <;> cases hp <;> cases hq <;> rw [EReal.coe_strictMono.cmp_map_eq] <;>
    refine congrArg some ?_
  · have hneg : StrictAnti fun a : ℝ => -a := fun _ _ => neg_lt_neg
    rw [hcompare, cmp_swap]
    exact (hneg.cmp_map_eq _ _).symm
  · exact ((cmp_eq_lt_iff _ _).mpr (by linarith)).symm
  · exact ((cmp_eq_gt_iff _ _).mpr (by linarith)).symm
  · exact hcompare

theorem compare_infinities {s t : Sign} {p q : EReal} (hp : number? (.infinity s) = some p)
    (hq : number? (.infinity t) = some q) :
    (UnpackedFloat.infinity s).compare (.infinity t) = some (cmp p q) := by
  cases s <;> cases t <;> cases hp <;> cases hq <;> refine congrArg some ?_
  · exact ((cmp_eq_eq_iff _ _).mpr rfl).symm
  · exact ((cmp_eq_lt_iff _ _).mpr bot_lt_top).symm
  · exact ((cmp_eq_gt_iff _ _).mpr bot_lt_top).symm
  · exact ((cmp_eq_eq_iff _ _).mpr rfl).symm

/-- An infinity lies beyond all real numbers. -/
theorem compare_infinity_real {s : Sign} {f : UnpackedFloat} {p : EReal} {r : ℝ}
    (hp : number? (.infinity s) = some p) (hf : number? f = some (r : EReal)) :
    (UnpackedFloat.infinity s).compare f = some (cmp p r) ∧
      f.compare (.infinity s) = some (cmp (r : EReal) p) := by
  have hlow : ⊥ < (r : EReal) := EReal.bot_lt_coe r
  have hhigh : (r : EReal) < ⊤ := EReal.coe_lt_top r
  cases f with
  | notANumber => cases hf
  | infinity t =>
      exfalso
      cases t
      · exact hlow.ne (Option.some.inj hf)
      · exact hhigh.ne' (Option.some.inj hf)
  | zero t =>
      cases s <;> cases hp <;> refine ⟨congrArg some ?_, congrArg some ?_⟩
      · exact ((cmp_eq_lt_iff _ _).mpr hlow).symm
      · exact ((cmp_eq_gt_iff _ _).mpr hlow).symm
      · exact ((cmp_eq_gt_iff _ _).mpr hhigh).symm
      · exact ((cmp_eq_lt_iff _ _).mpr hhigh).symm
  | finite t n e hn =>
      cases s <;> cases hp <;> refine ⟨congrArg some ?_, congrArg some ?_⟩
      · exact ((cmp_eq_lt_iff _ _).mpr hlow).symm
      · exact ((cmp_eq_gt_iff _ _).mpr hlow).symm
      · exact ((cmp_eq_gt_iff _ _).mpr hhigh).symm
      · exact ((cmp_eq_lt_iff _ _).mpr hhigh).symm

theorem compare_zero_finite {s t : Sign} {n : Nat} {f : Int} {hn : 0 < n} {q : EReal}
    (hq : number? (.finite t n f hn) = some q) :
    (UnpackedFloat.zero s).compare (.finite t n f hn) = some (cmp 0 q) ∧
      (UnpackedFloat.finite t n f hn).compare (.zero s) = some (cmp q 0) := by
  have hpos := magnitude_pos hn f
  cases t <;> cases hq <;> refine ⟨congrArg some ?_, congrArg some ?_⟩
  · exact ((cmp_eq_gt_iff _ _).mpr (EReal.coe_neg'.mpr (by linarith))).symm
  · exact ((cmp_eq_lt_iff _ _).mpr (EReal.coe_neg'.mpr (by linarith))).symm
  · exact ((cmp_eq_lt_iff _ _).mpr (EReal.coe_pos.mpr hpos)).symm
  · exact ((cmp_eq_gt_iff _ _).mpr (EReal.coe_pos.mpr hpos)).symm

theorem exists_real_of_finite {s : Sign} {m : Nat} {e : Int} {hm : 0 < m} {p : EReal}
    (hp : number? (.finite s m e hm) = some p) : ∃ r : ℝ, p = r := by
  cases s <;> cases hp <;> exact ⟨_, rfl⟩

/-- Stored parts compare like their values. -/
theorem Stored.compare_eq {f k : UnpackedFloat} {p q : EReal} (hf : Stored f) (hk : Stored k)
    (hp : number? f = some p) (hq : number? k = some q) : f.compare k = some (cmp p q) := by
  cases f with
  | notANumber => cases hp
  | infinity s =>
      cases k with
      | notANumber => cases hq
      | infinity t => exact compare_infinities hp hq
      | zero t =>
          cases hq
          exact (compare_infinity_real (r := 0) hp rfl).1
      | finite t n f hn =>
          obtain ⟨r, rfl⟩ := exists_real_of_finite hq
          exact (compare_infinity_real hp hq).1
  | zero s =>
      cases hp
      cases k with
      | notANumber => cases hq
      | infinity t => exact (compare_infinity_real (r := 0) hq rfl).2
      | zero t =>
          cases hq
          exact congrArg some ((cmp_eq_eq_iff _ _).mpr rfl).symm
      | finite t n f hn => exact (compare_zero_finite hq).1
  | finite s m e hm =>
      cases k with
      | notANumber => cases hq
      | infinity t =>
          obtain ⟨r, rfl⟩ := exists_real_of_finite hp
          exact (compare_infinity_real hq hp).2
      | zero t =>
          cases hq
          exact (compare_zero_finite hp).2
      | finite t n f hn => exact compare_finite (hf s m e hm rfl) (hk t n f hn rfl) hp hq

/-- What has no value compares with nothing. -/
theorem compare_eq_none {x y : Float.Model}
    (h : number? x.unpack = none ∨ number? y.unpack = none) :
    x.unpack.compare y.unpack = none := by
  have hnan : ∀ f : UnpackedFloat, number? f = none → f = .notANumber := by
    intro f hf
    rcases f with s | _ | s | ⟨s, m, e, hm⟩
    · cases s <;> cases hf
    · rfl
    · cases hf
    · cases s <;> cases hf
  rcases h with h | h
  · rw [hnan _ h]
    rfl
  · rw [hnan _ h]
    cases x.unpack <;> rfl

/-- Two doubles compare as their values do, if both have one. -/
theorem compare_eq_bind (a b : Float) :
    a.toModel.unpack.compare b.toModel.unpack =
      (value? a).bind fun p => (value? b).map fun q => cmp p q := by
  cases ha : value? a with
  | none => exact compare_eq_none (.inl ha)
  | some p =>
      cases hb : value? b with
      | none => exact compare_eq_none (.inr hb)
      | some q => exact (stored_unpack _).compare_eq (stored_unpack _) ha hb

theorem lt_iff {a b : Float} :
    a < b ↔ ∃ p q, value? a = some p ∧ value? b = some q ∧ p < q := by
  have hdef : a < b ↔ a.toModel.unpack.compare b.toModel.unpack = some .lt :=
    decide_eq_true_iff.trans beq_iff_eq
  rw [hdef, compare_eq_bind]
  simp [Option.bind_eq_some_iff]

theorem le_iff {a b : Float} :
    a ≤ b ↔ ∃ p q, value? a = some p ∧ value? b = some q ∧ p ≤ q := by
  have hdef : a ≤ b ↔ (a.toModel.unpack.compare b.toModel.unpack).any (·.isLE) = true :=
    decide_eq_true_iff
  rw [hdef, compare_eq_bind]
  cases value? a <;> cases value? b <;> simp [Ordering.isLE_iff_ne_gt, cmp_eq_gt_iff]

section Order

variable {a b c : Float}

theorem le_trans (h : a ≤ b) (h' : b ≤ c) : a ≤ c := by
  obtain ⟨p, q, ha, hb, hpq⟩ := le_iff.mp h
  obtain ⟨q', r, hb', hc, hqr⟩ := le_iff.mp h'
  cases hb.symm.trans hb'
  exact le_iff.mpr ⟨p, r, ha, hc, hpq.trans hqr⟩

theorem le_self_of_le (h : a ≤ b) : a ≤ a ∧ b ≤ b := by
  obtain ⟨p, q, ha, hb, _⟩ := le_iff.mp h
  exact ⟨le_iff.mpr ⟨p, p, ha, ha, le_rfl⟩, le_iff.mpr ⟨q, q, hb, hb, le_rfl⟩⟩

theorem le_of_lt (h : a < b) : a ≤ b := by
  obtain ⟨p, q, ha, hb, hpq⟩ := lt_iff.mp h
  exact le_iff.mpr ⟨p, q, ha, hb, hpq.le⟩

/-- Doubles that are numbers are in one order. -/
theorem le_of_not_lt (ha : a ≤ a) (hb : b ≤ b) (h : ¬ a < b) : b ≤ a := by
  obtain ⟨p, _, hp, _, _⟩ := le_iff.mp ha
  obtain ⟨q, _, hq, _, _⟩ := le_iff.mp hb
  refine le_iff.mpr ⟨q, p, hq, hp, not_lt.mp fun hpq => h ?_⟩
  exact lt_iff.mpr ⟨p, q, hp, hq, hpq⟩

theorem not_lt_of_le (h : b ≤ a) : ¬ a < b := by
  intro hlt
  obtain ⟨q, p, hb, ha, hqp⟩ := le_iff.mp h
  obtain ⟨p', q', ha', hb', hpq⟩ := lt_iff.mp hlt
  cases ha.symm.trans ha'
  cases hb.symm.trans hb'
  exact absurd hpq (not_lt.mpr hqp)

end Order

end FlowVerdict.Double
