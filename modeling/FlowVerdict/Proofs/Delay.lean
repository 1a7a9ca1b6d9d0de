import FlowVerdict.Proofs.Rounding
import FlowVerdict.Settings

/-!
# The delay of a graceful shutdown

A setting in seconds becomes a whole number of nanoseconds, and on the way back to seconds two
roundings take something away again. The slack that a graceful shutdown adds is much more than that.
-/

namespace FlowVerdict

open Float.Model (UnpackedFloat Format)
open Float.Model.UnpackedFloat (Sign)
open Double (AtLeast AtMost Representable magnitude value?)

namespace Decimal

theorem Binary.ofFloat_eq (x : Float) : Binary.ofFloat x =
    if Double.exponentField x.toModel = 2047 then
      if Double.mantissaField x.toModel = 0 then .infinite (decide (Nat.pow 2 63 ≤ x.toBits.toNat))
      else .nan
    else if Double.exponentField x.toModel = 0 then
      .finite (decide (Nat.pow 2 63 ≤ x.toBits.toNat)) (Double.mantissaField x.toModel) (-1074)
    else
      .finite (decide (Nat.pow 2 63 ≤ x.toBits.toNat))
        (Double.mantissaField x.toModel + Nat.pow 2 52) (Double.exponentField x.toModel - 1075) :=
  rfl

/-- A double is the same number when its bits are taken apart by hand. -/
theorem Binary.ofFloat_of_unpack {x : Float} {s : Sign} {m : Nat} {e : Int} {hm : 0 < m}
    (h : x.toModel.unpack = .finite s m e hm) :
    ∃ negative, Binary.ofFloat x = .finite negative m e := by
  rw [ofFloat_eq]
  rcases Double.fields_of_unpack h with ⟨hzero, rfl, rfl⟩ | ⟨hzero, hones, rfl, rfl⟩
  · rw [if_neg (by omega), if_pos hzero]
    exact ⟨_, rfl⟩
  · rw [if_neg hones, if_neg hzero, Nat.add_comm]
    exact ⟨_, rfl⟩

theorem Binary.ofFloat_of_zero {x : Float} {s : Sign} (h : x.toModel.unpack = .zero s) :
    ∃ negative, Binary.ofFloat x = .finite negative 0 (-1074) := by
  obtain ⟨hexponent, hmantissa⟩ := Double.fields_of_zero h
  rw [ofFloat_eq, if_neg (by omega), if_pos hexponent, hmantissa]
  exact ⟨_, rfl⟩

theorem Binary.ofFloat_of_infinity {x : Float} {s : Sign} (h : x.toModel.unpack = .infinity s) :
    ∃ negative, Binary.ofFloat x = .infinite negative := by
  obtain ⟨hexponent, hmantissa⟩ := Double.fields_of_infinity h
  rw [ofFloat_eq, if_pos hexponent, if_pos hmantissa]
  exact ⟨_, rfl⟩

/-- Rounding to the nearest whole number takes away half a one at most. -/
theorem le_roundDiv (tie : Tie) (num : Nat) {den : Nat} (hden : 0 < den) :
    2 * num ≤ 2 * (den * roundDiv tie num den) + den := by
  have hdiv := Nat.div_add_mod num den
  have hrest := Nat.mod_lt num hden
  have hsucc : den * (num / den + 1) = den * (num / den) + den := Nat.mul_succ _ _
  unfold roundDiv
  dsimp only
  split
  · next hlt =>
      have hhalf := Nat.compare_eq_lt.mp hlt
      omega
  · omega
  · omega
  · next heq =>
      have hhalf := Nat.compare_eq_eq.mp heq
      have hle : den * (num / den) ≤ den * (num / den + num / den % 2) :=
        Nat.mul_le_mul_left den (Nat.le_add_right _ _)
      omega

theorem roundDiv_le (tie : Tie) (num den : Nat) : roundDiv tie num den ≤ num / den + 1 := by
  unfold roundDiv
  dsimp only
  split <;> omega

theorem quotient_den_pos (m : Nat) (e : Int) (factor : Nat) : 0 < (quotient m e factor).2 := by
  unfold quotient
  split
  · exact Nat.one_pos
  · exact Nat.two_pow_pos _

/-- The quotient stands for the number times the factor. -/
theorem quotient_num (m : Nat) (e : Int) (factor : Nat) :
    ((quotient m e factor).1 : ℝ) = magnitude m e * factor * (quotient m e factor).2 := by
  unfold quotient magnitude
  split
  · next hnonneg =>
      have hpower : (2 : ℝ) ^ e = ((Nat.pow 2 e.toNat : Nat) : ℝ) := by
        conv_lhs => rw [← Int.toNat_of_nonneg hnonneg]
        rw [zpow_natCast]
        exact (Nat.cast_pow 2 e.toNat).symm
      rw [hpower]
      push_cast
      ring
  · next hneg =>
      have hpower : (2 : ℝ) ^ e * ((Nat.pow 2 (-e).toNat : Nat) : ℝ) = 1 := by
        have hcast : ((Nat.pow 2 (-e).toNat : Nat) : ℝ) = (2 : ℝ) ^ (-e) := by
          conv_rhs => rw [← Int.toNat_of_nonneg (show 0 ≤ -e by omega)]
          rw [zpow_natCast]
          exact Nat.cast_pow 2 (-e).toNat
        rw [hcast, ← zpow_add₀ (by norm_num), add_neg_cancel, zpow_zero]
      dsimp only
      rw [mul_right_comm, mul_assoc (m : ℝ), hpower]
      push_cast
      ring

end Decimal

namespace Span

theorem value?_zero : value? 0.0 = some 0 :=
  rfl

theorem value?_trillion : value? 1e12 = some ((10 ^ 12 : ℝ) : EReal) := by
  have hvalue : value? 1e12 = some ((magnitude 8192000000000000 (-13) : ℝ) : EReal) := rfl
  rw [hvalue, magnitude]
  norm_num

/-- A time of up to a trillion seconds is a real number. -/
theorem exists_real_of_le {x : Float} (h0 : 0.0 ≤ x) (h : x ≤ 1e12) :
    ∃ r : ℝ, value? x = some (r : EReal) ∧ 0 ≤ r ∧ r ≤ 10 ^ 12 := by
  obtain ⟨z, v, hz, hv, hzv⟩ := Double.le_iff.mp h0
  obtain ⟨v', w, hv', hw, hvw⟩ := Double.le_iff.mp h
  cases value?_zero.symm.trans hz
  cases value?_trillion.symm.trans hw
  cases hv.symm.trans hv'
  have htop : v ≠ ⊤ := (hvw.trans_lt (EReal.coe_lt_top _)).ne
  have hbot : v ≠ ⊥ := (EReal.bot_lt_zero.trans_le hzv).ne'
  lift v to ℝ using ⟨htop, hbot⟩
  exact ⟨v, hv, EReal.coe_nonneg.mp hzv, EReal.coe_le_coe_iff.mp hvw⟩

theorem exists_unpack_of_pos {x : Float} {v : EReal} (hv : value? x = some v) (hpos : 0 < v)
    (hfinite : v ≠ ⊤) :
    ∃ m e, ∃ hm : 0 < m, x.toModel.unpack = .finite .positive m e hm ∧ v = magnitude m e := by
  unfold value? at hv
  rcases hx : x.toModel.unpack with s | _ | s | ⟨s, m, e, hm⟩ <;> rw [hx] at hv
  · cases s <;> cases hv
    · exact absurd hpos (by simp)
    · exact absurd rfl hfinite
  · cases hv
  · cases hv
    exact absurd hpos (lt_irrefl 0)
  · cases s with
    | negative =>
        cases hv
        have hneg := Double.magnitude_pos hm e
        have hpos := EReal.coe_pos.mp hpos
        linarith
    | positive =>
        cases hv
        exact ⟨m, e, hm, rfl, rfl⟩

/-- The whole number of nanoseconds that comes closest to a number of seconds. -/
theorem roundDiv_bounds {num den : Nat} {a : ℝ} (hden : 0 < den)
    (hnum : (num : ℝ) = a * 10 ^ 9 * den) (hle : a ≤ 10 ^ 12) :
    Decimal.roundDiv .toEven num den ≤ 10 ^ 21 + 1 ∧
      a ≤ (Decimal.roundDiv .toEven num den + 1 / 2) / 10 ^ 9 := by
  have hdenReal : (0 : ℝ) < den := Nat.cast_pos.mpr hden
  constructor
  · refine (Decimal.roundDiv_le .toEven num den).trans (Nat.succ_le_succ ?_)
    have hcast : ((num / den : Nat) : ℝ) ≤ ((10 ^ 21 : Nat) : ℝ) := by
      calc ((num / den : Nat) : ℝ) ≤ num / den := Nat.cast_div_le
        _ = a * 10 ^ 9 := by
            rw [hnum]
            field_simp
        _ ≤ 10 ^ 12 * 10 ^ 9 := mul_le_mul_of_nonneg_right hle (by norm_num)
        _ = ((10 ^ 21 : Nat) : ℝ) := by norm_num
    exact Nat.cast_le.mp hcast
  · have hround : 2 * (num : ℝ) ≤
        2 * (den * (Decimal.roundDiv .toEven num den : ℝ)) + den := by
      exact_mod_cast Decimal.le_roundDiv .toEven num hden
    rw [hnum] at hround
    rw [le_div_iff₀ (by norm_num)]
    refine le_of_mul_le_mul_right ?_ hdenReal
    linarith

/-- A setting of up to a trillion seconds has a span, short of it by half a nanosecond at most. -/
theorem ofSetting_eq_ok {x : Float} (h : x ≤ 1e12) :
    ∃ span, ofSetting x = .ok span ∧ span.nanos ≤ 10 ^ 21 + 1 ∧
      AtMost x ((span.nanos + 1 / 2) / 10 ^ 9) := by
  obtain ⟨v, w, hv, hw, hvw⟩ := Double.le_iff.mp h
  cases value?_trillion.symm.trans hw
  by_cases hpos : 0.0 < x
  · obtain ⟨z, v', hz, hv', hzv⟩ := Double.lt_iff.mp hpos
    cases value?_zero.symm.trans hz
    cases hv.symm.trans hv'
    obtain ⟨m, e, hm, hx, rfl⟩ := exists_unpack_of_pos hv hzv (hvw.trans_lt (EReal.coe_lt_top _)).ne
    obtain ⟨negative, hbinary⟩ := Decimal.Binary.ofFloat_of_unpack hx
    have hnum := Decimal.quotient_num m e second
    rw [show (second : ℝ) = 10 ^ 9 by norm_num [second]] at hnum
    obtain ⟨hnanos, hclose⟩ := roundDiv_bounds (Decimal.quotient_den_pos m e second) hnum
      (EReal.coe_le_coe_iff.mp hvw)
    have hlimit : 10 ^ 21 + 1 < limit := by decide
    refine ⟨⟨_⟩, ?_, hnanos, _, hv, EReal.coe_le_coe_iff.mpr hclose⟩
    rw [ofSetting, if_pos hpos, hbinary]
    exact if_pos (hnanos.trans_lt hlimit)
  · refine ⟨⟨0⟩, if_neg hpos, Nat.zero_le _, v, hv, ?_⟩
    have hnonpos : v ≤ 0 := by
      by_contra hgt
      exact hpos (Double.lt_iff.mpr ⟨0, v, value?_zero, hv, not_le.mp hgt⟩)
    refine hnonpos.trans (EReal.coe_nonneg.mpr ?_)
    norm_num

theorem unpack_billion :
    (1e9 : Float).toModel.unpack = .finite .positive 8388608000000000 (-23) (by decide) :=
  rfl

/-- A span in fractional seconds is short of the span by two roundings at most. -/
theorem atLeast_toSeconds {span : Span} (h : span.nanos ≤ 2 * 10 ^ 21) :
    AtLeast span.toSeconds (span.nanos / 10 ^ 9 - 2 / 1024) := by
  have hparts : 10 ^ 9 * span.wholeSeconds + span.subsecond = span.nanos :=
    Nat.div_add_mod span.nanos second
  have hrest : span.subsecond < 10 ^ 9 := Nat.mod_lt _ (by decide)
  have hreal : (span.nanos : ℝ) = 10 ^ 9 * span.wholeSeconds + span.subsecond := by
    exact_mod_cast hparts.symm
  have hrestReal : (span.subsecond : ℝ) / 10 ^ 9 ≤ 1 := by
    rw [div_le_one (by norm_num)]
    exact_mod_cast hrest.le
  have hwholeReal : (span.wholeSeconds : ℝ) ≤ 2 * 10 ^ 12 := by
    have hwhole : span.wholeSeconds ≤ 2 * 10 ^ 12 := by omega
    exact_mod_cast hwhole
  have hbillion : magnitude 8388608000000000 (-23) = 10 ^ 9 := by
    rw [magnitude]
    norm_num
  obtain ⟨g, hg, hnonneg, hle, hclose⟩ :=
    Double.exists_representable (a := span.subsecond / 10 ^ 9) (by positivity) (by linarith)
  have hquotient : AtLeast ((UInt64.ofNat span.subsecond).toFloat / 1e9) g :=
    Double.atLeast_div (Double.atLeast_ofNat (by omega)) unpack_billion hg (by rwa [hbillion])
  have hsum := Double.atLeast_add_close
    (Double.atLeast_ofNat (n := span.wholeSeconds) (by omega)) hquotient (by positivity)
    (by linarith)
  refine hsum.mono ?_
  rw [hreal]
  linarith

end Span

namespace Settings

/-- The delay of a graceful shutdown is the timeout, to half a nanosecond, and the slack. -/
theorem gracefulDelay_eq_ok {s : Settings} (htimeout : s.synTimeout ≤ 1e12) :
    ∃ delay, s.gracefulDelay = .ok delay ∧ 10 ^ 8 ≤ delay.nanos ∧ delay.nanos ≤ 2 * 10 ^ 21 ∧
      AtMost s.synTimeout ((delay.nanos - 10 ^ 8 + 1 / 2) / 10 ^ 9) := by
  obtain ⟨span, hspan, hnanos, hclose⟩ := Span.ofSetting_eq_ok htimeout
  have hslack : gracefulSlack.nanos = 10 ^ 8 := by decide
  have hlimit : 2 * 10 ^ 21 < Span.limit := by decide
  have hfits : span.nanos + gracefulSlack.nanos < Span.limit := by omega
  have hadd : span.add gracefulSlack = .ok ⟨span.nanos + gracefulSlack.nanos⟩ := by
    rw [Span.add, if_pos hfits]
  refine ⟨⟨span.nanos + gracefulSlack.nanos⟩, ?_, ?_, ?_, ?_⟩
  · simp only [gracefulDelay, hspan, bind, Except.bind, hadd]
  · rw [hslack]
    exact Nat.le_add_left _ _
  · change span.nanos + gracefulSlack.nanos ≤ 2 * 10 ^ 21
    omega
  · rw [hslack, Nat.cast_add, Nat.cast_pow, Nat.cast_ofNat, add_sub_cancel_right]
    exact hclose

/-- The delay of a graceful shutdown outlasts the timeout, whatever rounding takes away: a SYN that
was pending at the start is past its age at the end. -/
theorem gracefulDelay_outlasts {s : Settings} {start : Float} (htimeout : s.synTimeout ≤ 1e12)
    (hstart : 0.0 ≤ start) (hlate : start ≤ 1e12) :
    ∃ delay, s.gracefulDelay = .ok delay ∧
      ∀ unixtime ≤ start, ¬ (start + delay.toSeconds) - unixtime ≤ s.synTimeout := by
  obtain ⟨delay, hdelay, hleast, hmost, hclose⟩ := gracefulDelay_eq_ok htimeout
  obtain ⟨r, hr, hr0, hr1⟩ := Span.exists_real_of_le hstart hlate
  refine ⟨delay, hdelay, ?_⟩
  intro unixtime hunixtime
  have hleastReal : (10 ^ 8 : ℝ) ≤ delay.nanos := by exact_mod_cast hleast
  have hmostReal : (delay.nanos : ℝ) ≤ 2 * 10 ^ 21 := by exact_mod_cast hmost
  have hbegin : AtLeast start r := ⟨r, hr, le_rfl⟩
  have hborn : AtMost unixtime r := by
    obtain ⟨u, p, hu, hp, hup⟩ := Double.le_iff.mp hunixtime
    cases hr.symm.trans hp
    exact ⟨u, hu, hup⟩
  have hwait := Span.atLeast_toSeconds hmost
  have hend := Double.atLeast_add_close hbegin hwait (by linarith) (by linarith)
  have hage := Double.atLeast_sub_close hend hborn (by linarith) (by linarith)
  refine Double.not_le_of_atLeast hage hclose ?_
  linarith

end Settings

end FlowVerdict
