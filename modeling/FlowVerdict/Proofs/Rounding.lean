import FlowVerdict.Proofs.Double

/-!
# Bounds that rounding respects

The sum, difference or quotient of two doubles is the exact one, rounded to 53 bits. Rounding never
goes past a number that has 53 bits itself, so such a number below the exact result is below the
rounded one too. In the range of clock times these numbers are less than a thousandth apart.
-/

namespace FlowVerdict.Double

open Float.Model (UnpackedFloat Format)
open Float.Model.UnpackedFloat (Sign Accuracy ExtendedMantissa)

theorem unpack_pack (f : UnpackedFloat) :
    (Float.Model.pack f).unpack =
      UnpackedFloat.unpack Format.binary64 (UnpackedFloat.pack Format.binary64 f) :=
  rfl

theorem bias_eq : (Format.binary64.exponentBias : Int) = 1023 := rfl

theorem log2_eq_of_filled {m : Nat} (h : 2 ^ 52 ≤ m) (hlt : m < 2 ^ 53) : m.log2 = 52 :=
  (Nat.log2_eq_iff (by omega)).mpr ⟨h, hlt⟩

theorem finite_congr {s : Sign} {m n : Nat} {e f : Int} (hm : 0 < m) (hn : 0 < n) (hmn : m = n)
    (hef : e = f) : UnpackedFloat.finite s m e hm = .finite s n f hn := by
  subst hmn hef
  rfl

theorem stored_exponent {e : Int} (h : e ≤ 971) :
    ¬ 2 ^ Format.binary64.exponentBits ≤ (e + Format.binary64.exponentBias +
      Format.binary64.mantissaBitsWithoutImplicit).toNat + 1 := by
  change ¬ 2 ^ 11 ≤ (e + 1023 + 52).toNat + 1
  omega

/-- A significand that fills its bits is stored without the first of them. -/
theorem unpack_pack_filled {s : Sign} {m : Nat} {e : Int} (hm : 0 < m) (hfilled : 2 ^ 52 ≤ m)
    (hlt : m < 2 ^ 53) (hlow : -1074 ≤ e) (hhigh : e ≤ 971) :
    (Float.Model.pack (.finite s m e hm)).unpack = .finite s m e hm := by
  have hones : BitVec.ofNat Format.binary64.exponentBits
      (e + Format.binary64.exponentBias + Format.binary64.mantissaBitsWithoutImplicit).toNat ≠
        -1#_ := by
    intro heq
    have hnat := congrArg BitVec.toNat heq
    change (e + 1023 + 52).toNat % 2 ^ 11 = 2047 at hnat
    omega
  have hzeros : BitVec.ofNat Format.binary64.exponentBits
      (e + Format.binary64.exponentBias + Format.binary64.mantissaBitsWithoutImplicit).toNat ≠
        0#_ := by
    intro heq
    have hnat := congrArg BitVec.toNat heq
    change (e + 1023 + 52).toNat % 2 ^ 11 = 0 at hnat
    omega
  rw [unpack_pack]
  unfold UnpackedFloat.pack
  dsimp only
  rw [if_neg (stored_exponent hhigh), if_pos (by rw [log2_eq_of_filled hfilled hlt]; rfl)]
  unfold UnpackedFloat.unpack
  dsimp only
  rw [UnpackedFloat.unpackExponent_packComponents, if_neg hones, if_neg hzeros,
    UnpackedFloat.unpackSign_packComponents,
    Sign.ofBitVec_toBitVec]
  refine finite_congr _ _ ?_ ?_
  · rw [UnpackedFloat.unpackMantissa_packComponents, toNat_append_one]
    change 2 ^ 52 + m % 2 ^ 52 = m
    omega
  · change ((((e + 1023 + 52).toNat % 2 ^ 11 : Nat) : Int) - (1023 + 52)) = e
    omega

/-- A significand that does not fill its bits is stored with the least power. -/
theorem unpack_pack_least {s : Sign} {m : Nat} (hm : 0 < m) (hlt : m < 2 ^ 52) :
    (Float.Model.pack (.finite s m (-1074) hm)).unpack = .finite s m (-1074) hm := by
  have hlog : m.log2 < 52 := (Nat.log2_lt (by omega)).mpr hlt
  have hones : (0#_ : BitVec Format.binary64.exponentBits) ≠ -1#_ := by decide
  have hnonzero : BitVec.ofNat Format.binary64.mantissaBitsWithoutImplicit m ≠ 0#_ := by
    intro heq
    have hnat := congrArg BitVec.toNat heq
    change m % 2 ^ 52 = 0 at hnat
    omega
  rw [unpack_pack]
  unfold UnpackedFloat.pack
  dsimp only
  rw [if_neg (stored_exponent (by decide)), if_neg (by change ¬ m.log2 + 1 = 53; omega)]
  unfold UnpackedFloat.unpack
  dsimp only
  rw [UnpackedFloat.unpackExponent_packComponents, if_neg hones, if_pos rfl,
    dif_neg (by rwa [UnpackedFloat.unpackMantissa_packComponents]),
    UnpackedFloat.unpackSign_packComponents, Sign.ofBitVec_toBitVec]
  refine finite_congr _ _ ?_ rfl
  rw [UnpackedFloat.unpackMantissa_packComponents]
  change m % 2 ^ 52 = m
  omega

/-- A number with stored parts is stored as it is. -/
theorem unpack_pack_canonical {s : Sign} {m : Nat} {e : Int} (hm : 0 < m) (h : Canonical m e) :
    (Float.Model.pack (.finite s m e hm)).unpack = .finite s m e hm := by
  by_cases hfilled : 2 ^ 52 ≤ m
  · exact unpack_pack_filled hm hfilled h.lt_mantissa h.le_exponent h.exponent_le
  · obtain rfl : e = -1074 := h.filled.resolve_left hfilled
    exact unpack_pack_least hm (not_le.mp hfilled)

/-- A number too big to be stored is stored as infinity. -/
theorem unpack_pack_overflow {s : Sign} {m : Nat} {e : Int} (hm : 0 < m) (h : 971 < e) :
    (Float.Model.pack (.finite s m e hm)).unpack = .infinity s := by
  have hbig : 2 ^ Format.binary64.exponentBits ≤
      (e + 1023 + Format.binary64.mantissaBitsWithoutImplicit).toNat + 1 := by
    change 2 ^ 11 ≤ (e + 1023 + 52).toNat + 1
    omega
  rw [unpack_pack]
  unfold UnpackedFloat.pack
  dsimp only
  rw [bias_eq, if_pos hbig]
  unfold UnpackedFloat.packedInfinity UnpackedFloat.unpack
  dsimp only
  rw [UnpackedFloat.unpackExponent_packComponents, if_pos rfl,
    UnpackedFloat.unpackMantissa_packComponents,
    if_pos (show (0 : BitVec 52) = 0#52 from rfl), UnpackedFloat.unpackSign_packComponents,
    Sign.ofBitVec_toBitVec]

theorem mantissa_repeat_shiftRightOne (em : ExtendedMantissa) (n : Nat) :
    (n.repeat ExtendedMantissa.shiftRightOne em).mantissa = em.mantissa / 2 ^ n := by
  induction n with
  | zero => simp [Nat.repeat]
  | succ n ih =>
      rw [Nat.repeat, ExtendedMantissa.shiftRightOne, ih, Nat.div_div_eq_div_mul, Nat.pow_succ]

theorem le_roundedMantissa (em : ExtendedMantissa) :
    em.mantissa ≤ em.roundedMantissa ∧ em.roundedMantissa ≤ em.mantissa + 1 := by
  obtain ⟨m, round, sticky⟩ := em
  cases round <;> cases sticky <;>
    simp only [ExtendedMantissa.roundedMantissa, ExtendedMantissa.accuracy,
      Accuracy.roundToNearestEven] <;> omega

/-- The power of two at which a significand is rounded. -/
def target (m : Nat) (e : Int) : Int :=
  max (m.log2 + 1 + e - 53) (-1074)

theorem mantissa_shiftToTargetExponent (m : Nat) (e : Int) (acc : Accuracy) :
    (UnpackedFloat.shiftToTargetExponent Format.binary64 m e acc).1.mantissa =
      m / 2 ^ (target m e - e).toNat := by
  have hinitial : (ExtendedMantissa.ofMantissaAndAccuracy m acc).mantissa = m := by
    rcases acc with _ | o
    · rfl
    · cases o <;> rfl
  exact (mantissa_repeat_shiftRightOne _ _).trans (by rw [hinitial]; rfl)

theorem exponent_shiftToTargetExponent (m : Nat) (e : Int) (acc : Accuracy) :
    (UnpackedFloat.shiftToTargetExponent Format.binary64 m e acc).2 =
      e + (target m e - e).toNat :=
  rfl

variable {m : Nat} {e : Int}

/-- What is left of a significand fits 53 bits and fills them, unless the power is the least one. -/
theorem shifted_bounds (h : e ≤ target m e) :
    m / 2 ^ (target m e - e).toNat < 2 ^ 53 ∧
      (2 ^ 52 ≤ m / 2 ^ (target m e - e).toNat ∨ target m e = -1074) := by
  have htarget : target m e = max (m.log2 + 1 + e - 53) (-1074) := rfl
  constructor
  · rw [Nat.div_lt_iff_lt_mul (Nat.two_pow_pos _), ← Nat.pow_add]
    calc m < 2 ^ (m.log2 + 1) := Nat.lt_log2_self
      _ ≤ 2 ^ (53 + (target m e - e).toNat) := Nat.pow_le_pow_right (by decide) (by omega)
  · by_cases hleast : target m e = -1074
    · exact .inr hleast
    · have hm : m ≠ 0 := by
        rintro rfl
        rw [Nat.log2_zero] at htarget
        omega
      refine .inl ((Nat.le_div_iff_mul_le (Nat.two_pow_pos _)).mpr ?_)
      rw [← Nat.pow_add]
      calc 2 ^ (52 + (target m e - e).toNat) ≤ 2 ^ m.log2 :=
            Nat.pow_le_pow_right (by decide) (by omega)
        _ ≤ m := Nat.log2_self_le hm

/-- Rounded up to a full power of two, a significand moves one place on; otherwise it is final. -/
theorem shiftToTargetExponent_final {r : Nat} {t : Int} (hr : r ≤ 2 ^ 53) (ht : -1074 ≤ t)
    (hfilled : 2 ^ 52 ≤ r ∨ t = -1074) :
    ∃ n f, (UnpackedFloat.shiftToTargetExponent Format.binary64 r t .exact).1.mantissa = n ∧
      (UnpackedFloat.shiftToTargetExponent Format.binary64 r t .exact).2 = f ∧
      n < 2 ^ 53 ∧ -1074 ≤ f ∧ (2 ^ 52 ≤ n ∨ f = -1074) ∧ magnitude n f = magnitude r t := by
  rw [mantissa_shiftToTargetExponent, exponent_shiftToTargetExponent]
  have htarget : target r t = max (r.log2 + 1 + t - 53) (-1074) := rfl
  rcases hr.lt_or_eq with hlt | rfl
  · have hlog : r.log2 ≤ 52 := by
      by_cases hzero : r = 0
      · rw [hzero, Nat.log2_zero]
        omega
      · have hlog := (Nat.log2_lt hzero).mpr hlt
        omega
    have hstay : (target r t - t).toNat = 0 := by omega
    rw [hstay, Nat.pow_zero, Nat.div_one]
    exact ⟨r, t, rfl, by omega, hlt, ht, hfilled, rfl⟩
  · rw [Nat.log2_two_pow] at htarget
    have hmove : (target (2 ^ 53) t - t).toNat = 1 := by omega
    rw [hmove]
    refine ⟨2 ^ 52, t + 1, by decide, by omega, by decide, by omega, .inl le_rfl, ?_⟩
    rw [show (2 ^ 53 : Nat) = 2 ^ 52 * 2 ^ 1 by decide, magnitude_mul_two_pow, Nat.cast_one]

/-- What rounding makes of a significand is no smaller than the significand cut off, and no bigger
than the next one. -/
theorem roundWithAccuracy_cases (s : Sign) (acc : Accuracy) (h : e ≤ target m e) :
    (UnpackedFloat.roundWithAccuracy Format.binary64 s m e acc = .zero s ∧
        m / 2 ^ (target m e - e).toNat = 0) ∨
      ∃ n f hn, UnpackedFloat.roundWithAccuracy Format.binary64 s m e acc = .finite s n f hn ∧
        n < 2 ^ 53 ∧ -1074 ≤ f ∧ (2 ^ 52 ≤ n ∨ f = -1074) ∧
        magnitude (m / 2 ^ (target m e - e).toNat) (target m e) ≤ magnitude n f ∧
        magnitude n f ≤ magnitude (m / 2 ^ (target m e - e).toNat + 1) (target m e) := by
  set em := (UnpackedFloat.shiftToTargetExponent Format.binary64 m e acc).1 with hem
  have hmantissa : em.mantissa = m / 2 ^ (target m e - e).toNat :=
    mantissa_shiftToTargetExponent m e acc
  have hexponent : (UnpackedFloat.shiftToTargetExponent Format.binary64 m e acc).2 =
      target m e := by
    rw [exponent_shiftToTargetExponent]
    omega
  have hleast : -1074 ≤ target m e := le_max_right _ _
  obtain ⟨hlt, hfilled⟩ := shifted_bounds h
  obtain ⟨hcut, hup⟩ := le_roundedMantissa em
  rw [hmantissa] at hcut hup
  obtain ⟨n, f, hn, hf, hlast⟩ := shiftToTargetExponent_final (r := em.roundedMantissa)
    (t := target m e) (by omega) hleast (by omega)
  have hround : UnpackedFloat.roundWithAccuracy Format.binary64 s m e acc =
      if hzero : n = 0 then .zero s else .finite s n f (Nat.pos_of_ne_zero hzero) := by
    subst hn hf
    rw [hem, ← hexponent]
    rfl
  obtain ⟨hnlt, hflow, hnfilled, hsame⟩ := hlast
  have hbelow : magnitude (m / 2 ^ (target m e - e).toNat) (target m e) ≤ magnitude n f := by
    rw [hsame]
    exact magnitude_le_iff.mpr hcut
  have habove : magnitude n f ≤ magnitude (m / 2 ^ (target m e - e).toNat + 1) (target m e) := by
    rw [hsame]
    exact magnitude_le_iff.mpr hup
  by_cases hzero : n = 0
  · refine .inl ⟨by rw [hround, dif_pos hzero], ?_⟩
    by_contra hne
    have hpos := magnitude_pos (Nat.pos_of_ne_zero hne) (target m e)
    have hnone : magnitude n f = 0 := by simp [magnitude, hzero]
    linarith
  · exact .inr ⟨n, f, Nat.pos_of_ne_zero hzero, by rw [hround, dif_neg hzero], hnlt, hflow,
      hnfilled, hbelow, habove⟩

/-- Numbers with 53 bits, on which rounding has nothing to do. -/
def Representable (g : ℝ) : Prop :=
  ∃ (k : Nat) (e : Int), k ≤ 2 ^ 53 ∧ -1074 ≤ e ∧ g = magnitude k e

/-- A number with 53 bits that a significand reaches is reached by what is left of it. -/
theorem Representable.le_shifted {g : ℝ} (hg : Representable g) (h : e ≤ target m e)
    (hbelow : g < magnitude (m + 1) e) :
    g ≤ magnitude (m / 2 ^ (target m e - e).toNat) (target m e) := by
  obtain ⟨k, f, hk, hf, rfl⟩ := hg
  obtain ⟨_, hfilled⟩ := shifted_bounds h
  set q := m / 2 ^ (target m e - e).toNat with hq
  rcases le_or_gt (target m e) f with hle | hgt
  · have hbound : magnitude k f = magnitude (k * 2 ^ (f - target m e).toNat) (target m e) := by
      rw [magnitude_mul_two_pow]
      congr 1
      omega
    have hnext : magnitude (m + 1) e ≤ magnitude (q + 1) (target m e) := by
      have hpower : target m e = e + (target m e - e).toNat := by omega
      have hcut : m + 1 ≤ (q + 1) * 2 ^ (target m e - e).toNat :=
        Nat.lt_mul_of_div_lt (Nat.lt_succ_self _) (Nat.two_pow_pos _)
      rw [hpower, ← magnitude_mul_two_pow]
      exact magnitude_le_iff.mpr (by simpa using hcut)
    rw [hbound] at hbelow ⊢
    have hlt := not_le.mpr (hbelow.trans_le hnext)
    rw [magnitude_le_iff] at hlt ⊢
    omega
  · have hq : 2 ^ 52 ≤ q := by
      rcases hfilled with hfilled | hleast
      · exact hfilled
      · omega
    calc magnitude k f ≤ magnitude (2 ^ 53) f := magnitude_le_iff.mpr hk
      _ = magnitude (2 ^ 52) (f + 1) := by
          rw [show (2 ^ 53 : Nat) = 2 ^ 52 * 2 ^ 1 by decide, magnitude_mul_two_pow, Nat.cast_one]
      _ ≤ magnitude (2 ^ 52) (target m e) := by
          refine mul_le_mul_of_nonneg_left ?_ (Nat.cast_nonneg _)
          exact zpow_le_zpow_right₀ (by norm_num) (by omega)
      _ ≤ magnitude q (target m e) := magnitude_le_iff.mpr hq

def AtLeast (x : Float) (g : ℝ) : Prop :=
  ∃ v, value? x = some v ∧ (g : EReal) ≤ v

def AtMost (x : Float) (g : ℝ) : Prop :=
  ∃ v, value? x = some v ∧ v ≤ (g : EReal)

theorem atLeast_pack_finite {g : ℝ} (hm : 0 < m) (hlt : m < 2 ^ 53) (hlow : -1074 ≤ e)
    (hfilled : 2 ^ 52 ≤ m ∨ e = -1074) (hg : g ≤ magnitude m e) :
    AtLeast (.ofModel (.pack (.finite .positive m e hm))) g := by
  by_cases hhigh : e ≤ 971
  · refine ⟨(magnitude m e : ℝ), ?_, EReal.coe_le_coe_iff.mpr hg⟩
    rw [value?, unpack_pack_canonical hm ⟨hlt, hlow, hfilled, hhigh⟩]
    rfl
  · refine ⟨⊤, ?_, le_top⟩
    rw [value?, unpack_pack_overflow hm (by omega)]
    rfl

theorem atLeast_pack_infinity (g : ℝ) : AtLeast (.ofModel (.pack (.infinity .positive))) g :=
  ⟨⊤, rfl, le_top⟩

theorem atLeast_pack_zero {g : ℝ} (s : Sign) (hg : g ≤ 0) :
    AtLeast (.ofModel (.pack (.zero s))) g := by
  refine ⟨0, ?_, EReal.coe_nonpos.mpr hg⟩
  cases s <;> rfl

/-- Rounding does not go below a number with 53 bits. -/
theorem atLeast_roundWithAccuracy {g : ℝ} (hg : Representable g) (acc : Accuracy)
    (h : e ≤ target m e) (hbelow : g < magnitude (m + 1) e) :
    AtLeast (.ofModel (.pack
      (UnpackedFloat.roundWithAccuracy Format.binary64 .positive m e acc))) g := by
  have hcut := hg.le_shifted h hbelow
  rcases roundWithAccuracy_cases .positive acc h with ⟨hround, hzero⟩ |
    ⟨n, f, hn, hround, hlt, hlow, hfilled, hle, _⟩
  · rw [hround]
    refine atLeast_pack_zero .positive ?_
    simpa [hzero, magnitude] using hcut
  · rw [hround]
    exact atLeast_pack_finite hn hlt hlow hfilled (hcut.trans hle)

theorem log2_shiftLeft (hm : m ≠ 0) (s : Nat) : (m <<< s).log2 = m.log2 + s := by
  rw [Nat.shiftLeft_eq, Nat.log2_eq_iff (Nat.mul_ne_zero hm (Nat.two_pow_pos s).ne')]
  constructor
  · rw [Nat.pow_add]
    exact Nat.mul_le_mul_right _ (Nat.log2_self_le hm)
  · calc m * 2 ^ s < 2 ^ (m.log2 + 1) * 2 ^ s :=
          Nat.mul_lt_mul_of_pos_right Nat.lt_log2_self (Nat.two_pow_pos s)
      _ = 2 ^ (m.log2 + s + 1) := by
          rw [← Nat.pow_add]
          congr 1
          omega

/-- Lowering the power of two changes neither the number nor where it is rounded. -/
theorem magnitude_shiftLeft (s : Nat) : magnitude (m <<< s) (e - s) = magnitude m e := by
  rw [Nat.shiftLeft_eq, magnitude_mul_two_pow, sub_add_cancel]

theorem target_shiftLeft (hm : m ≠ 0) (s : Nat) : target (m <<< s) (e - s) = target m e := by
  rw [target, target, log2_shiftLeft hm]
  congr 1
  omega

theorem atLeast_round {g : ℝ} (hg : Representable g) (hm : 0 < m) (hle : g ≤ magnitude m e) :
    AtLeast (.ofModel (.pack (UnpackedFloat.round Format.binary64 .positive m e))) g := by
  set s := (e - target m e).toNat with hs
  have htarget : target (m <<< s) (e - s) = target m e := target_shiftLeft hm.ne' s
  have hbelow : g < magnitude (m <<< s + 1) (e - s) := by
    refine hle.trans_lt ?_
    rw [← magnitude_shiftLeft s]
    exact magnitude_strictMono (Nat.lt_succ_self _) _
  have hround : UnpackedFloat.round Format.binary64 .positive m e =
      UnpackedFloat.roundWithAccuracy Format.binary64 .positive (m <<< s) (e - s) .exact := rfl
  rw [hround]
  exact atLeast_roundWithAccuracy hg .exact (by omega) hbelow

/-- Rounding a signed significand does not go below a number with 53 bits. -/
theorem atLeast_normalize {g : ℝ} (hg : Representable g) {n : Int} (s : Sign)
    (hle : g ≤ n * 2 ^ e) :
    AtLeast (.ofModel (.pack (UnpackedFloat.normalize Format.binary64 n e s))) g := by
  have htwo : (0 : ℝ) < 2 ^ e := zpow_pos (by norm_num) e
  have hnonneg : 0 ≤ g := by
    obtain ⟨k, f, _, _, rfl⟩ := hg
    exact magnitude_nonneg k f
  unfold UnpackedFloat.normalize
  split
  · next hlt =>
      have hneg : (n : ℝ) < 0 := Int.cast_lt_zero.mpr (Int.compare_eq_lt.mp hlt)
      have hprod := mul_neg_of_neg_of_pos hneg htwo
      linarith
  · next heq =>
      refine atLeast_pack_zero s ?_
      rw [Int.compare_eq_eq.mp heq] at hle
      simpa using hle
  · next hgt =>
      have hpos := Int.compare_eq_gt.mp hgt
      refine atLeast_round hg (by omega) ?_
      have hcast : ((n.toNat : Nat) : ℝ) = n := by
        exact_mod_cast Int.toNat_of_nonneg hpos.le
      rw [magnitude, hcast]
      exact hle

theorem stored_neg {f : UnpackedFloat} (h : Stored f) : Stored f.neg := by
  intro s m e hm heq
  cases f with
  | finite t n k hn =>
      cases heq
      exact h t m e hm rfl
  | notANumber => cases heq
  | infinity t => cases heq
  | zero t => cases heq

theorem number?_neg {f : UnpackedFloat} {v : EReal} (h : number? f = some v) :
    number? f.neg = some (-v) := by
  rcases f with s | _ | s | ⟨s, m, e, hm⟩
  · cases s <;> cases h <;> rfl
  · cases h
  · cases h
    simp [UnpackedFloat.neg, number?]
  · cases s
    · cases h
      exact congrArg some (neg_neg _).symm
    · cases h
      rfl

/-- What is stored is not rounded again. -/
theorem atLeast_pack {f : UnpackedFloat} {v : EReal} {g : ℝ} (hf : Stored f)
    (h : number? f = some v) (hle : g ≤ v) : AtLeast (.ofModel (.pack f)) g := by
  refine ⟨v, ?_, hle⟩
  rcases f with s | _ | s | ⟨s, m, e, hm⟩
  · cases s <;> cases h <;> rfl
  · cases h
  · cases s <;> cases h <;> rfl
  · rw [value?, unpack_pack_canonical hm (hf s m e hm rfl)]
    exact h

theorem sub_eq_add_neg (f k : UnpackedFloat) :
    UnpackedFloat.sub Format.binary64 f k = UnpackedFloat.add Format.binary64 f k.neg := by
  rcases f with s | _ | s | ⟨s, m, e, hm⟩ <;> rcases k with t | _ | t | ⟨t, n, h, hn⟩ <;> try rfl
  have happly : ∀ n : Int, (-t).apply n = -t.apply n := by
    intro n
    cases t
    · exact (neg_neg n).symm
    · rfl
  simp only [UnpackedFloat.sub, UnpackedFloat.add, UnpackedFloat.neg, happly, Int.sub_eq_add_neg]

/-- A sum of finite numbers is what rounding makes of the exact sum. -/
theorem atLeast_add_finite {g : ℝ} {s t : Sign} {m n : Nat} {e f : Int} (hm : 0 < m) (hn : 0 < n)
    (hg : Representable g) (hle : g ≤ signed s m e + signed t n f) :
    AtLeast (.ofModel (.pack
      (UnpackedFloat.add Format.binary64 (.finite s m e hm) (.finite t n f hn)))) g := by
  refine atLeast_normalize hg .positive (hle.trans_eq ?_)
  have hshift : ∀ (s : Sign) (m : Nat) (e low : Int), low ≤ e →
      signed s m e = (s.apply (m <<< (e - low).toNat : Nat) : Int) * 2 ^ low := by
    intro s m e low hlow
    have hpower : e = low + (e - low).toNat := by omega
    have hzpow : (2 : ℝ) ^ e = 2 ^ (e - low).toNat * 2 ^ low := by
      conv_lhs => rw [hpower]
      rw [zpow_add₀ (by norm_num), zpow_natCast, mul_comm]
    rw [signed, hzpow, Nat.shiftLeft_eq]
    cases s <;> simp [Sign.apply] <;> ring
  rw [hshift s m e (min e f) (min_le_left e f), hshift t n f (min e f) (min_le_right e f),
    Int.cast_add, add_mul]

/-- A sum does not go below a number with 53 bits. -/
theorem atLeast_add_stored {f k : UnpackedFloat} {p q : EReal} {a b g : ℝ} (hf : Stored f)
    (hk : Stored k) (hp : number? f = some p) (hq : number? k = some q) (ha : a ≤ p) (hb : b ≤ q)
    (hg : Representable g) (hle : g ≤ a + b) :
    AtLeast (.ofModel (.pack (UnpackedFloat.add Format.binary64 f k))) g := by
  -- only two finite numbers are rounded; every other sum is one of the two or an infinity
  rcases f with s | _ | s | ⟨s, m, e, hm⟩
  · cases s with
    | negative =>
        cases hp
        simp at ha
    | positive =>
        rcases k with t | _ | t | ⟨t, n, h, hn⟩
        · cases t with
          | negative =>
              cases hq
              simp at hb
          | positive => exact atLeast_pack_infinity g
        · cases hq
        · exact atLeast_pack_infinity g
        · exact atLeast_pack_infinity g
  · cases hp
  · cases hp
    have ha : a ≤ 0 := EReal.coe_nonpos.mp ha
    have hle' : (g : EReal) ≤ q := (EReal.coe_le_coe_iff.mpr (by linarith)).trans hb
    rcases k with t | _ | t | ⟨t, n, h, hn⟩
    · exact atLeast_pack hk hq hle'
    · cases hq
    · cases hq
      have hb : b ≤ 0 := EReal.coe_nonpos.mp hb
      have hadd : ∃ r, UnpackedFloat.add Format.binary64 (.zero s) (.zero t) = .zero r := by
        cases s <;> cases t <;> exact ⟨_, rfl⟩
      obtain ⟨r, hadd⟩ := hadd
      rw [hadd]
      exact atLeast_pack_zero r (by linarith)
    · exact atLeast_pack hk hq hle'
  · rw [number?_finite] at hp
    cases hp
    have ha : a ≤ signed s m e := EReal.coe_le_coe_iff.mp ha
    rcases k with t | _ | t | ⟨t, n, h, hn⟩
    · cases t with
      | negative =>
          cases hq
          simp at hb
      | positive => exact atLeast_pack_infinity g
    · cases hq
    · cases hq
      have hb : b ≤ 0 := EReal.coe_nonpos.mp hb
      refine atLeast_pack hf (number?_finite s hm) (EReal.coe_le_coe_iff.mpr ?_)
      linarith
    · rw [number?_finite] at hq
      cases hq
      have hb : b ≤ signed t n h := EReal.coe_le_coe_iff.mp hb
      exact atLeast_add_finite hm hn hg (by linarith)

variable {x y : Float} {a b g : ℝ}

theorem atLeast_add (hx : AtLeast x a) (hy : AtLeast y b) (hg : Representable g)
    (hle : g ≤ a + b) : AtLeast (x + y) g := by
  obtain ⟨p, hp, hap⟩ := hx
  obtain ⟨q, hq, hbq⟩ := hy
  exact atLeast_add_stored (stored_unpack _) (stored_unpack _) hp hq hap hbq hg hle

theorem atLeast_sub (hx : AtLeast x a) (hy : AtMost y b) (hg : Representable g)
    (hle : g ≤ a - b) : AtLeast (x - y) g := by
  obtain ⟨p, hp, hap⟩ := hx
  obtain ⟨q, hq, hqb⟩ := hy
  have hneg : ((-b : ℝ) : EReal) ≤ -q := by
    rw [EReal.coe_neg]
    exact EReal.neg_le_neg_iff.mpr hqb
  change AtLeast (.ofModel (.pack (UnpackedFloat.sub Format.binary64 x.toModel.unpack
    y.toModel.unpack))) g
  rw [sub_eq_add_neg]
  exact atLeast_add_stored (stored_unpack _) (stored_neg (stored_unpack _)) hp (number?_neg hq) hap
    hneg hg (by linarith)

/-- The power of two at which a quotient is cut off. -/
def quotientPower (m : Nat) (e : Int) (n : Nat) (f : Int) : Int :=
  min (e - f) (max (m.log2 + 1 + e - (n.log2 + 1 + f) - 53) (-1074))

/-- A quotient is cut off late enough for 53 bits of it. -/
theorem quotientPower_le_target {m n : Nat} {e f : Int} (hm : 0 < m) (hn : 0 < n) :
    quotientPower m e n f ≤
      target ((m <<< (e - f - quotientPower m e n f).toNat) / n) (quotientPower m e n f) := by
  have hpower : quotientPower m e n f =
    min (e - f) (max (m.log2 + 1 + e - (n.log2 + 1 + f) - 53) (-1074)) := rfl
  set low := quotientPower m e n f with hlow
  set s := (e - f - low).toNat with hs
  have htarget : target (m <<< s / n) low = max ((m <<< s / n).log2 + 1 + low - 53) (-1074) := rfl
  by_cases hleast : low ≤ -1074
  · omega
  · have hbits : n.log2 + 1 + 52 ≤ m.log2 + s := by omega
    have hle : 2 ^ 52 ≤ m <<< s / n := by
      rw [Nat.le_div_iff_mul_le hn, Nat.shiftLeft_eq]
      calc 2 ^ 52 * n ≤ 2 ^ 52 * 2 ^ (n.log2 + 1) :=
            Nat.mul_le_mul_left _ Nat.lt_log2_self.le
        _ = 2 ^ (n.log2 + 1 + 52) := by
            rw [← Nat.pow_add, Nat.add_comm]
        _ ≤ 2 ^ (m.log2 + s) := Nat.pow_le_pow_right (by decide) hbits
        _ = 2 ^ m.log2 * 2 ^ s := Nat.pow_add _ _ _
        _ ≤ m * 2 ^ s := Nat.mul_le_mul_right _ (Nat.log2_self_le hm.ne')
    have hlog : 52 ≤ (m <<< s / n).log2 := (Nat.le_log2 (by omega)).mpr hle
    omega

/-- The next number after a quotient that is cut off is above the quotient. -/
theorem div_lt_magnitude {m n : Nat} {e f low : Int} (hn : 0 < n) (hlow : low ≤ e - f) :
    magnitude m e / magnitude n f < magnitude ((m <<< (e - f - low).toNat) / n + 1) low := by
  have hcut : m <<< (e - f - low).toNat < (m <<< (e - f - low).toNat / n + 1) * n :=
    Nat.lt_mul_of_div_lt (Nat.lt_succ_self _) hn
  have hpower : e = low + f + (e - f - low).toNat := by omega
  have hsame : magnitude m e = magnitude (m <<< (e - f - low).toNat) (low + f) := by
    conv_lhs => rw [hpower]
    rw [← magnitude_mul_two_pow, Nat.shiftLeft_eq]
  have hprod : magnitude (m <<< (e - f - low).toNat / n + 1) low * magnitude n f =
      magnitude ((m <<< (e - f - low).toNat / n + 1) * n) (low + f) := by
    unfold magnitude
    rw [zpow_add₀ (by norm_num)]
    push_cast
    ring
  rw [div_lt_iff₀ (magnitude_pos hn f), hsame, hprod]
  exact magnitude_strictMono hcut _

theorem atLeast_div {n : Nat} {f : Int} {hn : 0 < n} (hx : AtLeast x a)
    (hy : y.toModel.unpack = .finite .positive n f hn) (hg : Representable g)
    (hle : g ≤ a / magnitude n f) : AtLeast (x / y) g := by
  obtain ⟨p, hp, hap⟩ := hx
  have hpos := magnitude_pos hn f
  have hnonneg : 0 ≤ g := by
    obtain ⟨k, e, _, _, rfl⟩ := hg
    exact magnitude_nonneg k e
  change AtLeast (.ofModel (.pack (UnpackedFloat.div Format.binary64 x.toModel.unpack
    y.toModel.unpack))) g
  unfold value? at hp
  rw [hy]
  rcases hxu : x.toModel.unpack with s | _ | s | ⟨s, m, e, hm⟩ <;> rw [hxu] at hp
  · cases s with
    | negative =>
        cases hp
        simp at hap
    | positive => exact atLeast_pack_infinity g
  · cases hp
  · cases hp
    have ha : a ≤ 0 := EReal.coe_nonpos.mp hap
    refine atLeast_pack_zero _ (hle.trans ?_)
    exact div_nonpos_of_nonpos_of_nonneg ha hpos.le
  · rw [number?_finite] at hp
    cases hp
    have ha : a ≤ signed s m e := EReal.coe_le_coe_iff.mp hap
    cases s with
    | negative =>
        have hneg : a < 0 := by
          refine ha.trans_lt ?_
          have hmpos := magnitude_pos hm e
          simpa [signed, Sign.apply, magnitude] using hmpos
        have hquotient := div_neg_of_neg_of_pos hneg hpos
        linarith
    | positive =>
        have hbelow : magnitude m e / magnitude n f <
            magnitude (m <<< (e - f - quotientPower m e n f).toNat / n + 1)
              (quotientPower m e n f) :=
          div_lt_magnitude hn (min_le_left _ _)
        refine atLeast_roundWithAccuracy hg _ (quotientPower_le_target hm hn) ?_
        refine hle.trans_lt (lt_of_le_of_lt ?_ hbelow)
        exact div_le_div_of_nonneg_right ha hpos.le

theorem AtLeast.mono {b : ℝ} (h : AtLeast x a) (hle : b ≤ a) : AtLeast x b := by
  obtain ⟨v, hv, hav⟩ := h
  exact ⟨v, hv, (EReal.coe_le_coe_iff.mpr hle).trans hav⟩

theorem not_le_of_atLeast (hx : AtLeast x a) (hy : AtMost y b) (hlt : b < a) : ¬ x ≤ y := by
  obtain ⟨p, hp, hap⟩ := hx
  obtain ⟨q, hq, hqb⟩ := hy
  intro hle
  obtain ⟨p', q', hp', hq', hpq⟩ := le_iff.mp hle
  cases hp.symm.trans hp'
  cases hq.symm.trans hq'
  have hab : (a : EReal) ≤ b := hap.trans (hpq.trans hqb)
  exact absurd hlt (not_lt.mpr (EReal.coe_le_coe_iff.mp hab))

theorem representable_natCast {n : Nat} (h : n ≤ 2 ^ 53) : Representable (n : ℝ) :=
  ⟨n, 0, h, by decide, by simp [magnitude]⟩

/-- Whole numbers of 53 bits are kept. -/
theorem atLeast_ofNat {n : Nat} (h : n ≤ 2 ^ 53) : AtLeast (UInt64.ofNat n).toFloat n := by
  have hcast : (UInt64.ofNat n).toNat = n :=
    UInt64.toNat_ofNat_of_lt' (h.trans_lt (by decide))
  refine atLeast_normalize (representable_natCast h) .positive ?_
  simp [hcast]

/-- Below `2 ^ 43` there is a number with 53 bits in every 1024th. -/
theorem exists_representable (h0 : 0 ≤ a) (h : a ≤ 2 ^ 43) :
    ∃ g, Representable g ∧ 0 ≤ g ∧ g ≤ a ∧ a - 1 / 1024 < g := by
  have hfloor := Nat.floor_le (mul_nonneg h0 (by norm_num : (0 : ℝ) ≤ 1024))
  have hnext := Nat.lt_floor_add_one (a * 1024)
  have hvalue : magnitude ⌊a * 1024⌋₊ (-10) = ⌊a * 1024⌋₊ / 1024 := by
    rw [magnitude, div_eq_mul_inv]
    norm_num
  refine ⟨magnitude ⌊a * 1024⌋₊ (-10), ⟨_, -10, ?_, by decide, rfl⟩, magnitude_nonneg _ _, ?_, ?_⟩
  · have hcast : (⌊a * 1024⌋₊ : ℝ) ≤ ((2 ^ 53 : Nat) : ℝ) := by
      push_cast
      linarith
    exact Nat.cast_le.mp hcast
  · rw [hvalue, div_le_iff₀ (by norm_num)]
    exact hfloor
  · rw [hvalue, lt_div_iff₀ (by norm_num)]
    linarith

theorem atLeast_add_close (hx : AtLeast x a) (hy : AtLeast y b) (h0 : 0 ≤ a + b)
    (h : a + b ≤ 2 ^ 43) : AtLeast (x + y) (a + b - 1 / 1024) := by
  obtain ⟨g, hg, _, hle, hclose⟩ := exists_representable h0 h
  exact (atLeast_add hx hy hg hle).mono hclose.le

theorem atLeast_sub_close (hx : AtLeast x a) (hy : AtMost y b) (h0 : 0 ≤ a - b)
    (h : a - b ≤ 2 ^ 43) : AtLeast (x - y) (a - b - 1 / 1024) := by
  obtain ⟨g, hg, _, hle, hclose⟩ := exists_representable h0 h
  exact (atLeast_sub hx hy hg hle).mono hclose.le

end FlowVerdict.Double
