import FlowVerdict.Decimal.Shortest
import FlowVerdict.Proofs.Delay

/-!
# The search for the shortest digits

On a grid finer than a quarter of the distance to the next double one of the neighbours reads back,
and twenty places below the first grid there is such a grid: so the search ends with digits. Of
these only two things matter where a number is written: that there is one that is not zero, and that
the decimal is not much bigger than the double.
-/

namespace FlowVerdict.Decimal

open Double (Canonical magnitude)

variable {tie : Tie} {i : Interval} {step digits : Nat} {m : Nat} {e p : Int}

theorem div_le_roundDiv (tie : Tie) (num den : Nat) : num / den ≤ roundDiv tie num den := by
  unfold roundDiv
  dsimp only
  split <;> omega

namespace Interval

theorem le_upper_of_holds {point : Nat} (h : i.holds point = true) : point ≤ i.upper := by
  unfold holds at h
  split at h <;> simp only [Bool.and_eq_true, decide_eq_true_eq] at h <;> omega

theorem of_onGrid?_eq_some (hzero : i.holds 0 = false) (h : i.onGrid? tie step = some digits) :
    0 < digits ∧ digits * step ≤ i.upper := by
  have hpos : ∀ n, i.holds (n * step) = true → 0 < n := by
    rintro (_ | n) hholds
    · rw [Nat.zero_mul, hzero] at hholds
      cases hholds
    · exact Nat.succ_pos n
  unfold onGrid? at h
  dsimp only at h
  split at h
  · next hbelow habove =>
      obtain rfl := Option.some.inj h
      have hlow := div_le_roundDiv tie i.value step
      have hhigh : roundDiv tie i.value step ≤ i.value / step + 1 := roundDiv_le tie i.value step
      have hmul := Nat.mul_le_mul_right step hhigh
      have hfirst := hpos _ hbelow
      have hlast := le_upper_of_holds habove
      omega
  · next hbelow _ =>
      obtain rfl := Option.some.inj h
      exact ⟨hpos _ hbelow, le_upper_of_holds hbelow⟩
  · next _ habove =>
      obtain rfl := Option.some.inj h
      exact ⟨Nat.succ_pos _, le_upper_of_holds habove⟩
  · cases h

/-- The neighbour below is close enough if the grid is fine enough. -/
theorem exists_onGrid?_eq_some (tie : Tie) (hstep : 0 < step) (hlower : i.lower + step ≤ i.value)
    (hupper : i.value < i.upper) : ∃ digits, i.onGrid? tie step = some digits := by
  have hbelow : i.holds (i.value / step * step) = true := by
    have hdiv := Nat.div_add_mod i.value step
    have hrest := Nat.mod_lt i.value hstep
    rw [Nat.mul_comm] at hdiv
    unfold holds
    split <;> simp only [Bool.and_eq_true, decide_eq_true_eq] <;> omega
  unfold onGrid?
  dsimp only
  split
  · exact ⟨_, rfl⟩
  · exact ⟨_, rfl⟩
  · next hnot _ =>
      rw [hbelow] at hnot
      cases hnot
  · next hnot _ =>
      rw [hbelow] at hnot
      cases hnot

end Interval

/-- A power as a quotient of two whole ones. -/
theorem pow_toNat_eq {b : ℝ} (hb : b ≠ 0) (k : Int) : b ^ k.toNat = b ^ k * b ^ (-k).toNat := by
  rw [← zpow_natCast, ← zpow_natCast, ← zpow_add₀ hb]
  congr 1
  omega

/-- A grid and the unit of an interval, brought to whole numbers by one factor. -/
theorem grid_eq (e p : Int) : ∃ unit : ℝ, 0 < unit ∧
    ((Nat.pow 2 (2 - e).toNat * Nat.pow 10 p.toNat : Nat) : ℝ) = 10 ^ p * unit ∧
    ((Nat.pow 2 (e - 2).toNat * Nat.pow 10 (-p).toNat : Nat) : ℝ) = 2 ^ (e - 2) * unit := by
  refine ⟨2 ^ (2 - e).toNat * 10 ^ (-p).toNat, by positivity, ?_, ?_⟩
  · rw [Nat.cast_mul, Nat.pow_eq, Nat.pow_eq, Nat.cast_pow, Nat.cast_pow, Nat.cast_ofNat,
      Nat.cast_ofNat, pow_toNat_eq (by norm_num : (10 : ℝ) ≠ 0) p]
    ring
  · rw [Nat.cast_mul, Nat.pow_eq, Nat.pow_eq, Nat.cast_pow, Nat.cast_pow, Nat.cast_ofNat,
      Nat.cast_ofNat, pow_toNat_eq (by norm_num : (2 : ℝ) ≠ 0) (e - 2), neg_sub]
    ring

theorem Interval.lower_pos (hm : 0 < m) (e : Int) : 0 < (Interval.ofBinary m e).lower := by
  simp only [Interval.ofBinary]
  split <;> omega

theorem Interval.lower_lt_value (hm : 0 < m) (e : Int) :
    (Interval.ofBinary m e).lower + 1 ≤ (Interval.ofBinary m e).value := by
  simp only [Interval.ofBinary]
  split <;> omega

/-- Digits on a grid are not zero, and the decimal is at most twice the double. -/
theorem of_digitsAt?_eq_some (hm : 0 < m) (h : digitsAt? tie m e p = some digits) :
    0 < digits ∧ (digits : ℝ) * 10 ^ p ≤ 2 * magnitude m e := by
  obtain ⟨unit, hunit, hstep, hfactor⟩ := grid_eq e p
  have hpos : 0 < Nat.pow 2 (e - 2).toNat * Nat.pow 10 (-p).toNat :=
    Nat.mul_pos (Nat.pow_pos (by decide)) (Nat.pow_pos (by decide))
  have hlower := Nat.mul_pos (Interval.lower_pos hm e) hpos
  have hzero : ((Interval.ofBinary m e).scale
      (Nat.pow 2 (e - 2).toNat * Nat.pow 10 (-p).toNat)).holds 0 = false := by
    unfold Interval.holds
    split <;> simp only [Bool.and_eq_false_iff, decide_eq_false_iff_not] <;> left
    · exact Nat.not_le_of_lt hlower
    · exact Nat.not_lt_zero _
  obtain ⟨hdigits, hupper⟩ := Interval.of_onGrid?_eq_some hzero h
  refine ⟨hdigits, ?_⟩
  have hreal : (digits : ℝ) * (10 ^ p * unit) ≤ (4 * m + 2) * (2 ^ (e - 2) * unit) := by
    rw [← hstep, ← hfactor]
    exact_mod_cast hupper
  have hone : (1 : ℝ) ≤ m := by exact_mod_cast hm
  refine le_of_mul_le_mul_right ?_ hunit
  calc (digits : ℝ) * 10 ^ p * unit = digits * (10 ^ p * unit) := mul_assoc _ _ _
    _ ≤ (4 * m + 2) * (2 ^ (e - 2) * unit) := hreal
    _ ≤ 8 * m * (2 ^ (e - 2) * unit) := mul_le_mul_of_nonneg_right (by linarith) (by positivity)
    _ = 2 * magnitude m e * unit := by
        rw [magnitude, zpow_sub₀ (by norm_num)]
        ring

/-- There are digits on every grid finer than a quarter of the distance to the next double. -/
theorem exists_digitsAt?_eq_some (tie : Tie) (hm : 0 < m) (h : (10 : ℝ) ^ p ≤ 2 ^ (e - 2)) :
    ∃ digits, digitsAt? tie m e p = some digits := by
  obtain ⟨unit, hunit, hstep, hfactor⟩ := grid_eq e p
  have hle : Nat.pow 2 (2 - e).toNat * Nat.pow 10 p.toNat ≤
      Nat.pow 2 (e - 2).toNat * Nat.pow 10 (-p).toNat := by
    have hreal : (10 : ℝ) ^ p * unit ≤ 2 ^ (e - 2) * unit :=
      mul_le_mul_of_nonneg_right h hunit.le
    rw [← hstep, ← hfactor] at hreal
    exact_mod_cast hreal
  refine Interval.exists_onGrid?_eq_some tie ?_ ?_ ?_
  · exact Nat.mul_pos (Nat.pow_pos (by decide)) (Nat.pow_pos (by decide))
  · have hmul := Nat.mul_le_mul_right (Nat.pow 2 (e - 2).toNat * Nat.pow 10 (-p).toNat)
      (Interval.lower_lt_value hm e)
    rw [Nat.add_mul, Nat.one_mul] at hmul
    exact (Nat.add_le_add_left hle _).trans hmul
  · refine Nat.mul_lt_mul_of_pos_right ?_ ?_
    · exact Nat.lt_add_of_pos_right (by decide)
    · exact Nat.mul_pos (Nat.pow_pos (by decide)) (Nat.pow_pos (by decide))

/-- The search stops at a grid that has digits. -/
theorem digitsAt?_searchFrom {grids skipped : Nat} (hlt : skipped < grids)
    (h : ∃ digits, digitsAt? tie m e (p - skipped) = some digits) :
    digitsAt? tie m e (searchFrom tie m e grids p).exponent =
      some (searchFrom tie m e grids p).digits := by
  induction grids generalizing p skipped with
  | zero => exact absurd hlt (Nat.not_lt_zero _)
  | succ grids ih =>
      rw [searchFrom]
      split
      · next hfound => exact hfound
      · next hnone =>
          cases skipped with
          | zero =>
              obtain ⟨digits, hdigits⟩ := h
              rw [Nat.cast_zero, sub_zero, hnone] at hdigits
              cases hdigits
          | succ skipped =>
              refine ih (Nat.lt_of_succ_lt_succ hlt) ?_
              have hsame : p - 1 - (skipped : Int) = p - ((skipped + 1 : Nat) : Int) := by omega
              rwa [hsame]

/-- The first grid is chosen by `30103 / 100000`, which is close enough to the decimal logarithm of
two for every power of two that a double can have. -/
theorem ten_pow_le_two_pow : ∀ t ∈ Finset.Icc (-1074 : Int) 1023,
    10 ^ (t * 30103 / 100000).toNat * 2 ^ (-(t + 1)).toNat ≤
      2 ^ (t + 1).toNat * 10 ^ (-(t * 30103 / 100000)).toNat := by
  decide +kernel

theorem ten_zpow_le_two_zpow {t : Int} (hlow : -1074 ≤ t) (hhigh : t ≤ 1023) :
    (10 : ℝ) ^ (t * 30103 / 100000) ≤ 2 ^ (t + 1) := by
  have hnat := ten_pow_le_two_pow t (Finset.mem_Icc.mpr ⟨hlow, hhigh⟩)
  have hreal : (10 : ℝ) ^ (t * 30103 / 100000).toNat * 2 ^ (-(t + 1)).toNat ≤
      2 ^ (t + 1).toNat * 10 ^ (-(t * 30103 / 100000)).toNat := by exact_mod_cast hnat
  rw [pow_toNat_eq (by norm_num : (10 : ℝ) ≠ 0) (t * 30103 / 100000),
    pow_toNat_eq (by norm_num : (2 : ℝ) ≠ 0) (t + 1)] at hreal
  have hscale : (0 : ℝ) < 10 ^ (-(t * 30103 / 100000)).toNat * 2 ^ (-(t + 1)).toNat := by positivity
  refine le_of_mul_le_mul_right ?_ hscale
  calc _ = (10 : ℝ) ^ (t * 30103 / 100000) * 10 ^ (-(t * 30103 / 100000)).toNat *
        2 ^ (-(t + 1)).toNat := (mul_assoc _ _ _).symm
    _ ≤ 2 ^ (t + 1) * 2 ^ (-(t + 1)).toNat * 10 ^ (-(t * 30103 / 100000)).toNat := hreal
    _ = _ := by ring

/-- The last of the grids is fine enough for every double. -/
theorem last_grid_le (h : Canonical m e) (hm : 0 < m) :
    (10 : ℝ) ^ (powerAbove m e - (20 : Nat)) ≤ 2 ^ (e - 2) := by
  have hlog : m.log2 < 53 := (Nat.log2_lt (by omega)).mpr h.lt_mantissa
  have hlow := h.le_exponent
  have hhigh := h.exponent_le
  have hfirst : (10 : ℝ) ^ ((e + m.log2) * 30103 / 100000) ≤ 2 ^ (e + m.log2 + 1) :=
    ten_zpow_le_two_zpow (by omega) (by omega)
  have hlast : powerAbove m e - (20 : Nat) = (e + m.log2) * 30103 / 100000 - 18 := by
    rw [powerAbove]
    omega
  rw [hlast, zpow_sub₀ (by norm_num), div_le_iff₀ (by positivity)]
  calc (10 : ℝ) ^ ((e + m.log2) * 30103 / 100000) ≤ 2 ^ (e + m.log2 + 1) := hfirst
    _ ≤ 2 ^ (e - 2 + 59) := zpow_le_zpow_right₀ (by norm_num) (by omega)
    _ = 2 ^ (e - 2) * 2 ^ (59 : Int) := zpow_add₀ (by norm_num) _ _
    _ ≤ 2 ^ (e - 2) * 10 ^ (18 : Int) := by
        refine mul_le_mul_of_nonneg_left ?_ (by positivity)
        norm_num

/-- The digits that are found are not zero, and the decimal is at most twice the double. -/
theorem shortest_bounds (tie : Tie) (h : Canonical m e) (hm : 0 < m) :
    0 < (shortest tie m e).digits ∧
      ((shortest tie m e).digits : ℝ) * 10 ^ (shortest tie m e).exponent ≤ 2 * magnitude m e := by
  rw [shortest, if_neg hm.ne']
  have hlast := exists_digitsAt?_eq_some tie hm (last_grid_le h hm)
  exact of_digitsAt?_eq_some hm (digitsAt?_searchFrom (by decide) hlast)

theorem exponent_shortest_of_zero (tie : Tie) (h : Canonical m e)
    (hdigits : (shortest tie m e).digits = 0) : (shortest tie m e).exponent = 0 := by
  rcases Nat.eq_zero_or_pos m with rfl | hm
  · rw [shortest, if_pos rfl]
  · have hpos := (shortest_bounds tie h hm).1
    omega

/-- Zero included, the decimal is at most twice the double. -/
theorem shortest_le (tie : Tie) (h : Canonical m e) :
    ((shortest tie m e).digits : ℝ) * 10 ^ (shortest tie m e).exponent ≤ 2 * magnitude m e := by
  rcases Nat.eq_zero_or_pos m with rfl | hm
  · simp [shortest, magnitude]
  · exact (shortest_bounds tie h hm).2

theorem le_exponent_searchFrom (tie : Tie) (m : Nat) (e p : Int) (grids : Nat) :
    p - grids ≤ (searchFrom tie m e grids p).exponent := by
  induction grids generalizing p with
  | zero => simp [searchFrom]
  | succ grids ih =>
      rw [searchFrom]
      split
      · exact Int.sub_le_self _ (Int.natCast_nonneg _)
      · have hnext := ih (p - 1)
        push_cast
        omega

theorem le_exponent_shortest (tie : Tie) (h : Canonical m e) :
    -400 ≤ (shortest tie m e).exponent := by
  unfold shortest
  split
  · decide
  · have hlow := le_exponent_searchFrom tie m e (powerAbove m e) 21
    have hexponent := h.le_exponent
    have hfirst : powerAbove m e = (e + m.log2) * 30103 / 100000 + 2 := rfl
    omega

/-- The first digit of a double far from the largest stands at a power of ten below 302. -/
theorem power_shortest_le (tie : Tie) (h : Canonical m e)
    (hbound : magnitude m e ≤ 2 ^ (999 : Int)) :
    (shortest tie m e).exponent + (Nat.toDigits 10 (shortest tie m e).digits).length - 1 ≤ 302 := by
  rcases Nat.eq_zero_or_pos m with rfl | hm
  · rw [shortest, if_pos rfl]
    decide
  obtain ⟨hpos, hle⟩ := shortest_bounds tie h hm
  generalize shortest tie m e = s at *
  obtain ⟨n, hn⟩ : ∃ n, (Nat.toDigits 10 s.digits).length = n + 1 :=
    Nat.exists_eq_succ_of_ne_zero Nat.length_toDigits_pos.ne'
  have hfirst : 10 ^ n ≤ s.digits := by
    rcases n.eq_zero_or_pos with rfl | hn'
    · exact hpos
    · by_contra hlt
      have hshort := (Nat.length_toDigits_le_iff (by decide) hn').mpr (Nat.lt_of_not_le hlt)
      omega
  have hten : (2 : ℝ) ^ (1000 : Int) < 10 ^ (302 : Int) := by
    have hnat : 2 ^ 1000 < 10 ^ 302 := by decide +kernel
    exact_mod_cast hnat
  have hreal : (10 : ℝ) ^ (s.exponent + n) < 10 ^ (302 : Int) :=
    calc (10 : ℝ) ^ (s.exponent + n) = 10 ^ n * 10 ^ s.exponent := by
          rw [add_comm, zpow_add₀ (by norm_num), zpow_natCast]
      _ ≤ s.digits * 10 ^ s.exponent := by
          refine mul_le_mul_of_nonneg_right ?_ (by positivity)
          exact_mod_cast hfirst
      _ ≤ 2 * 2 ^ (999 : Int) := by linarith
      _ = 2 ^ (1000 : Int) := (zpow_one_add₀ (by norm_num) 999).symm
      _ < 10 ^ (302 : Int) := hten
  have hpower := (zpow_lt_zpow_iff_right₀ (by norm_num)).mp hreal
  omega

end FlowVerdict.Decimal
