import FlowVerdict.Json.Number
import FlowVerdict.Proofs.ShortestDigits

/-!
# Decimals that are scaled

The digits of a decimal become a double, and that is multiplied by a power of ten. Each rounding on
the way at most doubles a number and adds one, so that a decimal well inside the range of doubles
has a double and is not refused.
-/

namespace FlowVerdict

open Float.Model (UnpackedFloat Format)
open Float.Model.UnpackedFloat (Sign Accuracy)

namespace Double

variable {m n : Nat} {e f : Int} {x y : Float} {b c : ℝ}

/-- Rounding at most doubles a number and adds one. -/
theorem next_shifted_le (h : e ≤ target m e) :
    magnitude (m / 2 ^ (target m e - e).toNat + 1) (target m e) ≤ 2 * magnitude m e + 1 := by
  obtain ⟨_, hfilled⟩ := shifted_bounds h
  set q := m / 2 ^ (target m e - e).toNat with hq
  have hcut : magnitude q (target m e) ≤ magnitude m e := by
    have hpower : target m e = e + (target m e - e).toNat := by omega
    rw [hpower, ← magnitude_mul_two_pow]
    exact magnitude_le_iff.mpr (Nat.div_mul_le_self m _)
  have hunit : (2 : ℝ) ^ target m e ≤ magnitude m e + 1 := by
    rcases hfilled with hfilled | hleast
    · have hone : (1 : ℝ) ≤ q := by exact_mod_cast (Nat.one_le_two_pow.trans hfilled)
      have hle : 1 * (2 : ℝ) ^ target m e ≤ magnitude q (target m e) :=
        mul_le_mul_of_nonneg_right hone (by positivity)
      linarith
    · have hle : (2 : ℝ) ^ target m e ≤ 1 := by
        rw [hleast]
        exact zpow_le_one_of_nonpos₀ (by norm_num) (by decide)
      linarith [magnitude_nonneg m e]
  calc magnitude (q + 1) (target m e) = magnitude q (target m e) + 2 ^ target m e := by
        rw [magnitude, magnitude]
        push_cast
        ring
    _ ≤ 2 * magnitude m e + 1 := by linarith

/-- A double is zero or a positive number up to a bound. -/
def Within (x : Float) (b : ℝ) : Prop :=
  (∃ s, x.toModel.unpack = .zero s) ∨
    ∃ m e hm, x.toModel.unpack = .finite .positive m e hm ∧ magnitude m e ≤ b

theorem Within.isInf_eq_false (h : Within x b) : x.isInf = false := by
  change x.toModel.unpack.isInf = false
  rcases h with ⟨s, hzero⟩ | ⟨m, e, hm, hfinite, _⟩
  · rw [hzero]
    rfl
  · rw [hfinite]
    rfl

theorem Within.mono (h : Within x b) (hle : b ≤ c) : Within x c :=
  h.imp_right fun ⟨m, e, hm, hfinite, hb⟩ => ⟨m, e, hm, hfinite, hb.trans hle⟩

theorem within_pack_zero (s : Sign) (b : ℝ) : Within (.ofModel (.pack (.zero s))) b := by
  cases s
  · exact .inl ⟨.negative, rfl⟩
  · exact .inl ⟨.positive, rfl⟩

/-- What is far below the largest double is not rounded to infinity. -/
theorem within_roundWithAccuracy (acc : Accuracy) (h : e ≤ target m e)
    (hsmall : 2 * magnitude m e + 1 < 2 ^ (1023 : Int)) :
    Within (.ofModel (.pack (UnpackedFloat.roundWithAccuracy Format.binary64 .positive m e acc)))
      (2 * magnitude m e + 1) := by
  rcases roundWithAccuracy_cases .positive acc h with ⟨hround, _⟩ |
    ⟨n, f, hn, hround, hlt, hlow, hfilled, _, hle⟩
  · rw [hround]
    exact within_pack_zero _ _
  · have hbound : magnitude n f ≤ 2 * magnitude m e + 1 := hle.trans (next_shifted_le h)
    have hhigh : f ≤ 971 := by
      by_contra hgt
      have hfull : 2 ^ 52 ≤ n := hfilled.resolve_right (by omega)
      have hreal : (2 : ℝ) ^ (52 : Int) ≤ n := by exact_mod_cast hfull
      have hover : (2 : ℝ) ^ (1023 : Int) ≤ magnitude n f := by
        calc (2 : ℝ) ^ (1023 : Int) ≤ 2 ^ (52 + f) :=
              zpow_le_zpow_right₀ (by norm_num) (by omega)
          _ = 2 ^ (52 : Int) * 2 ^ f := zpow_add₀ (by norm_num) _ _
          _ ≤ magnitude n f := mul_le_mul_of_nonneg_right hreal (by positivity)
      linarith
    rw [hround]
    refine .inr ⟨n, f, hn, ?_, hbound⟩
    exact unpack_pack_canonical hn ⟨hlt, hlow, hfilled, hhigh⟩

/-- A whole number of 64 bits as a double. -/
theorem within_ofNat (h : n < 2 ^ 64) : Within (UInt64.ofNat n).toFloat (3 * n) := by
  have hcast : (UInt64.ofNat n).toNat = n := UInt64.toNat_ofNat_of_lt' h
  change Within (.ofModel (.pack (UnpackedFloat.normalize Format.binary64 (UInt64.ofNat n).toNat 0
    .positive))) _
  rw [hcast]
  rcases Nat.eq_zero_or_pos n with rfl | hpos
  · exact within_pack_zero .positive _
  · have hnormal : UnpackedFloat.normalize Format.binary64 (n : Int) 0 .positive =
        UnpackedFloat.round Format.binary64 .positive n 0 := by
      unfold UnpackedFloat.normalize
      rw [Int.compare_eq_gt.mpr (by omega)]
      rfl
    set s := ((0 : Int) - target n 0).toNat with hs
    have hround : UnpackedFloat.round Format.binary64 .positive n 0 =
        UnpackedFloat.roundWithAccuracy Format.binary64 .positive (n <<< s) (0 - s) .exact := rfl
    have htarget : target (n <<< s) (0 - s) = target n 0 := target_shiftLeft hpos.ne' s
    have hsame : magnitude (n <<< s) (0 - s) = n := by
      rw [magnitude_shiftLeft, magnitude, zpow_zero, mul_one]
    have hone : (1 : ℝ) ≤ n := by exact_mod_cast hpos
    have hreal : (n : ℝ) ≤ 2 ^ 64 := by exact_mod_cast h.le
    have hsmall : 2 * magnitude (n <<< s) (0 - s) + 1 < 2 ^ (1023 : Int) := by
      rw [hsame]
      calc 2 * (n : ℝ) + 1 ≤ 2 * 2 ^ 64 + 1 := by linarith
        _ < 2 ^ (66 : Int) := by norm_num
        _ ≤ 2 ^ (1023 : Int) := zpow_le_zpow_right₀ (by norm_num) (by decide)
    rw [hnormal, hround]
    exact (within_roundWithAccuracy .exact (by omega) hsmall).mono (by rw [hsame]; linarith)

theorem magnitude_mul (m n : Nat) (e f : Int) :
    magnitude (m * n) (e + f) = magnitude m e * magnitude n f := by
  rw [magnitude, zpow_add₀ (by norm_num), magnitude, magnitude]
  push_cast
  ring

/-- The product of two doubles is rounded to 53 bits, or at the least power. -/
theorem Canonical.le_target_mul (h : Canonical m e) (h' : Canonical n f) (hm : 0 < m) (hn : 0 < n) :
    e + f ≤ target (m * n) (e + f) := by
  have htarget : target (m * n) (e + f) = max ((m * n).log2 + 1 + (e + f) - 53) (-1074) := rfl
  have hpos := (Nat.mul_pos hm hn).ne'
  rcases h.filled with hfilled | hleast
  · have hlog : 52 ≤ (m * n).log2 :=
      (Nat.le_log2 hpos).mpr (hfilled.trans (Nat.le_mul_of_pos_right m hn))
    omega
  · rcases h'.filled with hfilled | hleast'
    · have hlog : 52 ≤ (m * n).log2 :=
        (Nat.le_log2 hpos).mpr (hfilled.trans (Nat.le_mul_of_pos_left n hm))
      omega
    · omega

/-- A product that is far below the largest double. -/
theorem within_mul (hx : Within x b) (hy : Within y c) (hb : 0 ≤ b)
    (hsmall : 2 * (b * c) + 1 < 2 ^ (1023 : Int)) : Within (x * y) (2 * (b * c) + 1) := by
  change Within (.ofModel (.pack (UnpackedFloat.mul Format.binary64 x.toModel.unpack
    y.toModel.unpack))) _
  rcases hx with ⟨s, hzero⟩ | ⟨m, e, hm, hfinite, hle⟩
  · rw [hzero]
    rcases hy with ⟨t, hzero'⟩ | ⟨n, f, hn, hfinite', _⟩
    · rw [hzero']
      exact within_pack_zero _ _
    · rw [hfinite']
      exact within_pack_zero _ _
  · rw [hfinite]
    rcases hy with ⟨t, hzero'⟩ | ⟨n, f, hn, hfinite', hle'⟩
    · rw [hzero']
      exact within_pack_zero _ _
    · rw [hfinite']
      have hprod : magnitude (m * n) (e + f) ≤ b * c := by
        rw [magnitude_mul]
        exact mul_le_mul hle hle' (magnitude_nonneg n f) hb
      have htarget := (canonical_of_unpack hfinite).le_target_mul (canonical_of_unpack hfinite')
        hm hn
      exact (within_roundWithAccuracy .exact htarget (by linarith)).mono (by linarith)

/-- Whether a double is a positive number and at most twice a whole one. -/
def isAtMostTwice (x : Float) (n : Nat) : Bool :=
  match x.toModel.unpack with
  | .finite .positive m e _ => decide (m * 2 ^ e.toNat ≤ 2 * n * 2 ^ (-e).toNat)
  | _ => false

theorem within_of_isAtMostTwice (h : isAtMostTwice x n = true) : Within x (2 * n) := by
  unfold isAtMostTwice at h
  split at h
  · next m e hm hunpack =>
      refine .inr ⟨m, e, hm, hunpack, ?_⟩
      have hreal : (m : ℝ) * 2 ^ e.toNat ≤ 2 * n * 2 ^ (-e).toNat := by
        exact_mod_cast of_decide_eq_true h
      rw [Decimal.pow_toNat_eq (by norm_num : (2 : ℝ) ≠ 0) e, ← mul_assoc] at hreal
      exact le_of_mul_le_mul_right hreal (by positivity)
  · cases h

end Double

namespace Json

open Double (Within magnitude target)

variable {d power : Nat}

theorem isAtMostTwice_tenTo :
    ∀ power ≤ 22, Double.isAtMostTwice (tenTo power) (10 ^ power) = true := by
  decide +kernel

theorem ten_pow_le (h : power ≤ 302) : (10 : ℝ) ^ power ≤ 2 ^ (1004 : Int) := by
  have hnat : 10 ^ 302 ≤ 2 ^ 1004 := by decide +kernel
  have hcast : ((10 ^ 302 : Nat) : ℝ) ≤ ((2 ^ 1004 : Nat) : ℝ) := Nat.cast_le.mpr hnat
  rw [Nat.cast_pow, Nat.cast_pow, Nat.cast_ofNat, Nat.cast_ofNat] at hcast
  calc (10 : ℝ) ^ power ≤ 10 ^ 302 := pow_le_pow_right₀ (by norm_num) h
    _ ≤ 2 ^ 1004 := hcast
    _ = 2 ^ (1004 : Int) := (zpow_ofNat 2 1004).symm

/-- A big power of ten is rounded once. -/
theorem tenTo_of_big (hbig : 22 < power) (h : power ≤ 302) :
    tenTo power = .ofModel (.pack (UnpackedFloat.roundWithAccuracy Format.binary64 .positive
      (2 ^ 53 * 10 ^ power) (-53) .exact)) := by
  have hlarge : ¬ (1 < 2 ^ 53 ∧ power ≤ 22) := fun hle => absurd hle.2 (Nat.not_le_of_lt hbig)
  have hhigh : ¬ Int.ofNat power > 2 ^ Format.binary64.exponentBits := by
    change ¬ (power : Int) > 2 ^ 11
    omega
  have hnonneg : 0 ≤ Int.ofNat power := Int.natCast_nonneg power
  have hlow : ¬ Int.ofNat power <
      -(2 ^ Format.binary64.exponentBits + ((1 : Nat).log2 : Int)) := by
    change ¬ (power : Int) < -(2 ^ 11 + ((1 : Nat).log2 : Int))
    omega
  rw [tenTo, Float.ofScientific, dif_neg hlarge]
  dsimp only
  rw [if_neg (by decide), Float.Model.ofScientific, UnpackedFloat.ofScientific,
    dif_neg (by decide), if_neg hhigh, if_neg hlow, if_pos hnonneg]
  rfl

/-- The power of ten that a decimal is scaled by. -/
theorem within_tenTo (h : power ≤ 302) : Within (tenTo power) (3 * 10 ^ power) := by
  have hone : (1 : ℝ) ≤ 10 ^ power := one_le_pow₀ (by norm_num)
  rcases Nat.lt_or_ge 22 power with hbig | hsmall
  · have hvalue : magnitude (2 ^ 53 * 10 ^ power) (-53) = 10 ^ power := by
      rw [magnitude]
      push_cast
      norm_num
      ring
    have hlog : 53 ≤ (2 ^ 53 * 10 ^ power).log2 := by
      have hpos : 0 < 10 ^ power := Nat.pow_pos (by decide)
      exact (Nat.le_log2 (Nat.mul_pos (by decide) hpos).ne').mpr (Nat.le_mul_of_pos_right _ hpos)
    have htarget : -53 ≤ target (2 ^ 53 * 10 ^ power) (-53) :=
      le_max_of_le_left (by omega)
    have hfits : 2 * magnitude (2 ^ 53 * 10 ^ power) (-53) + 1 < 2 ^ (1023 : Int) := by
      rw [hvalue]
      calc 2 * (10 : ℝ) ^ power + 1 ≤ 2 ^ (2 : Int) * 10 ^ power := by
            rw [show (2 : ℝ) ^ (2 : Int) = 4 by norm_num]
            linarith
        _ ≤ 2 ^ (2 : Int) * 2 ^ (1004 : Int) :=
            mul_le_mul_of_nonneg_left (ten_pow_le h) (by positivity)
        _ = 2 ^ (1006 : Int) := (zpow_add₀ (by norm_num) 2 1004).symm
        _ < 2 ^ (1023 : Int) := zpow_lt_zpow_right₀ (by norm_num) (by decide)
    have hrounded := Double.within_roundWithAccuracy .exact htarget hfits
    rw [hvalue, ← tenTo_of_big hbig h] at hrounded
    exact hrounded.mono (by linarith)
  · have htwice := Double.within_of_isAtMostTwice (isAtMostTwice_tenTo power hsmall)
    rw [Nat.cast_pow, Nat.cast_ofNat] at htwice
    exact htwice.mono (by linarith)

theorem exists_scaledDown (steps : Nat) (x : Float) (power : Int) :
    ∃ y, scaled.scaledDown steps x power = .ok y := by
  induction steps generalizing x power with
  | zero => exact ⟨_, rfl⟩
  | succ steps ih =>
      unfold scaled.scaledDown
      split
      · exact ⟨_, rfl⟩
      · split
        · exact ⟨_, rfl⟩
        · exact ih _ _

/-- A decimal well inside the range of doubles is not refused. -/
theorem exists_toFloat (negative : Bool) {power : Int} (hd : d ≤ digitLimit) (hpower : power ≤ 302)
    (hbound : (d : ℝ) * 10 ^ power.toNat ≤ 2 ^ (1000 : Int)) :
    ∃ x, toFloat negative d power = .ok x := by
  have hscaled : ∃ x, scaled (UInt64.ofNat d).toFloat power = .ok x := by
    unfold scaled
    split
    · next hnonneg =>
        have hdigits : Within (UInt64.ofNat d).toFloat (3 * d) :=
          Double.within_ofNat (Nat.lt_of_le_of_lt hd (by decide))
        have hten : Within (tenTo power.toNat) (3 * 10 ^ power.toNat) := within_tenTo (by omega)
        have hsmall : 2 * (3 * (d : ℝ) * (3 * 10 ^ power.toNat)) + 1 < 2 ^ (1023 : Int) := by
          have hone : (1 : ℝ) ≤ 2 ^ (1000 : Int) := one_le_zpow₀ (by norm_num) (by decide)
          calc 2 * (3 * (d : ℝ) * (3 * 10 ^ power.toNat)) + 1
              = 18 * (d * 10 ^ power.toNat) + 1 := by ring
            _ ≤ 2 ^ (5 : Int) * 2 ^ (1000 : Int) := by
                generalize (2 : ℝ) ^ (1000 : Int) = u at hone hbound ⊢
                rw [show (2 : ℝ) ^ (5 : Int) = 32 by norm_num]
                linarith
            _ = 2 ^ (1005 : Int) := (zpow_add₀ (by norm_num) 5 1000).symm
            _ < 2 ^ (1023 : Int) := zpow_lt_zpow_right₀ (by norm_num) (by decide)
        have hfinite :=
          (Double.within_mul hdigits hten (by positivity) hsmall).isInf_eq_false
        rw [if_neg (by omega)]
        simp only [hfinite]
        exact ⟨_, rfl⟩
    · exact exists_scaledDown _ _ _
  obtain ⟨x, hx⟩ := hscaled
  refine ⟨if negative then -x else x, ?_⟩
  simp only [toFloat, hx, bind, Except.bind]

end Json

end FlowVerdict
