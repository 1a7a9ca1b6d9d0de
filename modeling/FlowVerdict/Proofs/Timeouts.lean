import FlowVerdict.CommandLine.Reader
import FlowVerdict.Proofs.Delay

/-!
# Timeouts without a span

Reading a timeout refuses what is negative or not finite, and no other number. The spans that the
workers make of the timeouts end at `2 ^ 64` seconds: up to there each timeout has its span, and
from there on none has.
-/

namespace FlowVerdict

open Float.Model (UnpackedFloat Format)
open Float.Model.UnpackedFloat (Sign Accuracy)
open Double (AtLeast Canonical magnitude value?)

namespace Double

variable {m : Nat} {e : Int} {x y : Float}

/-- The doubles below `2 ^ 64` end well before it. -/
theorem Canonical.magnitude_le_of_lt (h : Canonical m e)
    (hlt : magnitude m e < magnitude (2 ^ 52) 12) : magnitude m e ≤ magnitude (2 ^ 53 - 1) 11 := by
  have hbound : Canonical (2 ^ 53 - 1) 11 := ⟨by decide, by decide, .inl (by decide), by decide⟩
  rcases lt_trichotomy e 11 with hlow | rfl | hhigh
  · exact (h.magnitude_lt hbound hlow).le
  · have hmantissa := h.lt_mantissa
    exact magnitude_le_iff.mpr (by omega)
  · exfalso
    have hfilled : 2 ^ 52 ≤ m := h.filled.resolve_right (by omega)
    have hpower : (2 : ℝ) ^ (12 : Int) ≤ 2 ^ e := zpow_le_zpow_right₀ (by norm_num) (by omega)
    have hle : magnitude (2 ^ 52) 12 ≤ magnitude m e :=
      (mul_le_mul_of_nonneg_left hpower (Nat.cast_nonneg _)).trans (magnitude_le_iff.mpr hfilled)
    exact absurd hlt (not_lt.mpr hle)

/-- The doubles from `2 ^ 64` on are whole numbers. -/
theorem Canonical.nonneg_of_le (h : Canonical m e)
    (hle : magnitude (2 ^ 52) 12 ≤ magnitude m e) : 0 ≤ e := by
  by_contra hneg
  have hbound : Canonical (2 ^ 52) 12 := ⟨by decide, by decide, .inl (by decide), by decide⟩
  exact absurd (h.magnitude_lt hbound (by omega)) (not_lt.mpr hle)

theorem exists_value?_of_isFinite (h : x.isFinite = true) : ∃ v, value? x = some v := by
  change x.toModel.unpack.isFinite = true at h
  unfold value?
  rcases hx : x.toModel.unpack with s | _ | s | ⟨s, m, e, hm⟩ <;> rw [hx] at h
  · cases h
  · cases h
  · exact ⟨0, rfl⟩
  · exact ⟨_, number?_finite s hm⟩

theorem unpack_three :
    (3.0 : Float).toModel.unpack = .finite .positive (3 * 2 ^ 51) (-51) (by decide) :=
  rfl

/-- Three times a finite double is a number again, and not negative if the double is not. -/
theorem atLeast_three_mul (hfinite : x.isFinite = true) (hnonneg : AtLeast x 0) :
    AtLeast (3.0 * x) 0 := by
  obtain ⟨v, hv, h0⟩ := hnonneg
  have hzero : Representable 0 := ⟨0, 0, by decide, by decide, by simp [magnitude]⟩
  change AtLeast (.ofModel (.pack (UnpackedFloat.mul Format.binary64 (3.0 : Float).toModel.unpack
    x.toModel.unpack))) 0
  change x.toModel.unpack.isFinite = true at hfinite
  unfold value? at hv
  rw [unpack_three]
  rcases hx : x.toModel.unpack with s | _ | s | ⟨s, m, e, hm⟩ <;> rw [hx] at hv hfinite
  · cases hfinite
  · cases hv
  · exact atLeast_pack_zero _ le_rfl
  · cases s with
    | negative =>
        cases hv
        have hpos := magnitude_pos hm e
        have hneg := EReal.coe_nonneg.mp h0
        linarith
    | positive =>
        -- the product fills its bits, so that none of its powers is lost
        have hlog : 52 ≤ (3 * 2 ^ 51 * m).log2 := (Nat.le_log2 (by omega)).mpr (by omega)
        have htarget : -51 + e ≤ target (3 * 2 ^ 51 * m) (-51 + e) :=
          le_max_of_le_left (by omega)
        exact atLeast_roundWithAccuracy hzero .exact htarget (magnitude_pos (Nat.succ_pos _) _)

end Double

/-- Only an infinite double has the value beyond all numbers. -/
theorem Double.unpack_of_value?_eq_top {x : Float} (h : value? x = some ⊤) :
    x.toModel.unpack = .infinity .positive := by
  unfold value? at h
  rcases hx : x.toModel.unpack with s | _ | s | ⟨s, m, e, hm⟩ <;> rw [hx] at h
  · cases s
    · cases h
    · rfl
  · cases h
  · cases h
  · cases s <;> cases h

namespace Span

def limitSeconds : Float := 18446744073709551616.0

theorem value?_limitSeconds : value? limitSeconds = some (magnitude (2 ^ 52) 12 : ℝ) :=
  rfl

theorem limitSeconds_mul_second : magnitude (2 ^ 52) 12 * second = limit := by
  norm_num [magnitude, second, limit]

/-- A setting below the end has a span that leaves room for another two thousand seconds. -/
theorem ofSetting_of_lt {v : Float} (hlt : v < limitSeconds) :
    ∃ span, ofSetting v = .ok span ∧ span.nanos + 2000 * second < limit := by
  obtain ⟨p, q, hp, hq, hpq⟩ := Double.lt_iff.mp hlt
  cases value?_limitSeconds.symm.trans hq
  by_cases hpos : 0.0 < v
  · obtain ⟨z, p', hz, hp', hzp⟩ := Double.lt_iff.mp hpos
    cases value?_zero.symm.trans hz
    cases hp.symm.trans hp'
    obtain ⟨m, e, hm, hx, rfl⟩ := exists_unpack_of_pos hp hzp (hpq.trans (EReal.coe_lt_top _)).ne
    obtain ⟨negative, hbinary⟩ := Decimal.Binary.ofFloat_of_unpack hx
    have hle := (Double.canonical_of_unpack hx).magnitude_le_of_lt (EReal.coe_lt_coe_iff.mp hpq)
    set num := (Decimal.quotient m e second).1 with hnumDef
    set den := (Decimal.quotient m e second).2 with hdenDef
    have hnum : (num : ℝ) = magnitude m e * second * den := Decimal.quotient_num m e second
    have hcast : (num : ℝ) ≤ ((den * ((2 ^ 64 - 2048) * second) : Nat) : ℝ) := by
      calc (num : ℝ) = magnitude m e * (second * den) := by rw [hnum, mul_assoc]
        _ ≤ magnitude (2 ^ 53 - 1) 11 * (second * den) :=
            mul_le_mul_of_nonneg_right hle (by positivity)
        _ = ((den * ((2 ^ 64 - 2048) * second) : Nat) : ℝ) := by
            norm_num [magnitude]
            ring
    have hquotient : num / den ≤ (2 ^ 64 - 2048) * second :=
      Nat.div_le_of_le_mul (Nat.cast_le.mp hcast)
    have hround := Decimal.roundDiv_le .toEven num den
    have hroom : (2 ^ 64 - 2048) * second + 1 + 2000 * second < limit := by decide
    have hfits : Decimal.roundDiv .toEven num den + 2000 * second < limit := by omega
    refine ⟨⟨Decimal.roundDiv .toEven num den⟩, ?_, hfits⟩
    rw [ofSetting, if_pos hpos, hbinary]
    exact if_pos ((Nat.le_add_right _ _).trans_lt hfits)
  · exact ⟨⟨0⟩, if_neg hpos, by decide⟩

/-- A setting that is not below the end has no span. -/
theorem ofSetting_of_not_lt {v : Float} (h0 : AtLeast v 0) (hnot : ¬ v < limitSeconds) :
    ofSetting v = .error .tooLong := by
  obtain ⟨p, hp, -⟩ := h0
  have hle : ((magnitude (2 ^ 52) 12 : ℝ) : EReal) ≤ p := by
    by_contra hlt
    exact hnot (Double.lt_iff.mpr ⟨p, _, hp, value?_limitSeconds, not_le.mp hlt⟩)
  have hzero : 0 < p := by
    have hpos : 0 < magnitude (2 ^ 52) 12 := Double.magnitude_pos (by decide) 12
    exact (EReal.coe_pos.mpr hpos).trans_le hle
  have hpos : 0.0 < v := Double.lt_iff.mpr ⟨0, p, value?_zero, hp, hzero⟩
  rw [ofSetting, if_pos hpos]
  by_cases htop : p = ⊤
  · have hunpack : v.toModel.unpack = .infinity .positive :=
      Double.unpack_of_value?_eq_top (htop ▸ hp)
    obtain ⟨negative, hinfinite⟩ := Decimal.Binary.ofFloat_of_infinity hunpack
    rw [hinfinite]
  · obtain ⟨m, e, hm, hx, rfl⟩ := exists_unpack_of_pos hp hzero htop
    obtain ⟨negative, hbinary⟩ := Decimal.Binary.ofFloat_of_unpack hx
    have hreal := EReal.coe_le_coe_iff.mp hle
    have hnonneg := (Double.canonical_of_unpack hx).nonneg_of_le hreal
    have hnum := Decimal.quotient_num m e second
    have hquotient : Decimal.quotient m e second =
        (m * second * Nat.pow 2 e.toNat, 1) := if_pos hnonneg
    rw [hquotient] at hnum
    have hlimit : limit ≤ m * second * Nat.pow 2 e.toNat := by
      have hcast : (limit : ℝ) ≤ ((m * second * Nat.pow 2 e.toNat : Nat) : ℝ) := by
        rw [hnum, ← limitSeconds_mul_second, Nat.cast_one, mul_one]
        exact mul_le_mul_of_nonneg_right hreal (Nat.cast_nonneg _)
      exact Nat.cast_le.mp hcast
    have hround := Decimal.le_roundDiv .toEven (m * second * Nat.pow 2 e.toNat) Nat.one_pos
    rw [hbinary]
    simp only [hquotient]
    exact if_neg (by omega)

theorem ofSetting_eq_ok_iff {v : Float} (h0 : AtLeast v 0) :
    (∃ span, ofSetting v = .ok span) ↔ v < limitSeconds := by
  constructor
  · rintro ⟨span, hspan⟩
    by_contra hnot
    rw [ofSetting_of_not_lt h0 hnot] at hspan
    cases hspan
  · intro hlt
    obtain ⟨span, hspan, -⟩ := ofSetting_of_lt hlt
    exact ⟨span, hspan⟩

end Span

namespace CommandLine

/-- A timeout is accepted only if it is finite and not negative. -/
theorem of_readSeconds_eq_ok {text : String} {x : Float} (h : readSeconds text = .ok x) :
    x.isFinite = true ∧ AtLeast x 0 := by
  unfold readSeconds at h
  split at h
  · next y _ =>
      split at h
      · next haccepted =>
          cases h
          obtain ⟨hfinite, hnonneg⟩ := Bool.and_eq_true_iff.mp haccepted
          refine ⟨hfinite, ?_⟩
          have hnot : ¬ x < 0.0 := by simpa using hnonneg
          obtain ⟨v, hv⟩ := Double.exists_value?_of_isFinite hfinite
          refine ⟨v, hv, not_lt.mp fun hneg => hnot ?_⟩
          exact Double.lt_iff.mpr ⟨v, 0, hv, Span.value?_zero, hneg⟩
      · cases h
  · cases h

end CommandLine

namespace Settings

open CommandLine (readSeconds)

/-- The slack never makes a delay too long: it fits between the last double below the end and the
end. -/
theorem gracefulDelay_eq_ok_iff {s : Settings} (h0 : AtLeast s.synTimeout 0) :
    (∃ span, s.gracefulDelay = .ok span) ↔ s.synTimeout < Span.limitSeconds := by
  constructor
  · rintro ⟨span, hspan⟩
    by_contra hnot
    simp [gracefulDelay, Span.ofSetting_of_not_lt h0 hnot, bind, Except.bind] at hspan
  · intro hlt
    obtain ⟨span, hspan, hroom⟩ := Span.ofSetting_of_lt hlt
    have hslack : gracefulSlack.nanos ≤ 2000 * Span.second := by decide
    have hfits : span.nanos + gracefulSlack.nanos < Span.limit := by omega
    have hadd : span.add gracefulSlack = .ok ⟨span.nanos + gracefulSlack.nanos⟩ := by
      rw [Span.add, if_pos hfits]
    refine ⟨⟨span.nanos + gracefulSlack.nanos⟩, ?_⟩
    simp only [gracefulDelay, hspan, bind, Except.bind, hadd]

/-- The spans made of two accepted timeouts exist exactly as far as the settings that they are made
of are below `2 ^ 64` seconds. Nothing else keeps a worker from its span, and no check on the
command line keeps it from a setting beyond. -/
theorem timeouts_have_spans_iff {waitText timeoutText : String} {wait timeout : Float}
    (hwait : readSeconds waitText = .ok wait) (htimeout : readSeconds timeoutText = .ok timeout)
    (given : Settings) :
    let s := { given with conWait := wait, synTimeout := timeout }
    ((∃ span, s.warmUp = .ok span) ↔ wait < Span.limitSeconds) ∧
      ((∃ span, s.latch = .ok span) ↔ 3.0 * wait < Span.limitSeconds) ∧
      ((∃ span, s.gracefulDelay = .ok span) ↔ timeout < Span.limitSeconds) := by
  intro s
  obtain ⟨hfinite, hnonneg⟩ := CommandLine.of_readSeconds_eq_ok hwait
  obtain ⟨-, htimeoutNonneg⟩ := CommandLine.of_readSeconds_eq_ok htimeout
  exact ⟨Span.ofSetting_eq_ok_iff hnonneg,
    Span.ofSetting_eq_ok_iff (Double.atLeast_three_mul hfinite hnonneg),
    gracefulDelay_eq_ok_iff htimeoutNonneg⟩

/-- A warm-up with a span whose latch has none, and a timeout without delay. -/
theorem timeouts_have_no_spans :
    let s := { CommandLine.Choices.standard.invocation.settings with
      conWait := 1e19, synTimeout := 1e20 }
    readSeconds "1e19" = .ok 1e19 ∧ readSeconds "1e20" = .ok 1e20 ∧
      (∃ span, s.warmUp = .ok span) ∧ (¬ ∃ span, s.latch = .ok span) ∧
      ¬ ∃ span, s.gracefulDelay = .ok span := by
  have hwait : readSeconds "1e19" = .ok 1e19 := by rfl
  have htimeout : readSeconds "1e20" = .ok 1e20 := by rfl
  obtain ⟨hwarm, hlatch, hdelay⟩ := timeouts_have_spans_iff hwait htimeout
    CommandLine.Choices.standard.invocation.settings
  exact ⟨hwait, htimeout, hwarm.mpr (by decide +kernel),
    fun h => absurd (hlatch.mp h) (by decide +kernel),
    fun h => absurd (hdelay.mp h) (by decide +kernel)⟩

end Settings

end FlowVerdict
