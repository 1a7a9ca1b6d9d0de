import FlowVerdict.Proofs.DigitText
import FlowVerdict.Proofs.Scaling

/-!
# Doubles in JSON text

A double is written as a whole part, a fraction and a power of ten, of which one of the last two may
be missing. Such a numeral is read as the decimal of its digits, cut off where they no longer fit 64
bits, and scaled by one power of ten. Written doubles of a magnitude below `1e300` are never refused
when they are read.
-/

namespace FlowVerdict.Json

open Text.Utf8 (encode)

variable {rest : Bytes} {negative : Bool} {digits : Nat} {scale : Int}

/-- A power of ten after a number, if there is one: its sign and its digits after a letter E. -/
def powerChars : Option Int → List Char
  | none => []
  | some power => 'e' :: (if power < 0 then '-' else '+') :: Nat.toDigits 10 power.natAbs

def fractionChars : List Char → List Char
  | [] => []
  | c :: cs => '.' :: c :: cs

/-- A number in digits that is read as a double, apart from its sign. -/
structure Numeral where
  whole : List Char
  fraction : List Char
  power : Option Int
  starts : Starts whole
  digits : Digits fraction
  fits : Nat.ofDigitChars 10 whole 0 ≤ digitLimit
  isFloat : fraction ≠ [] ∨ power ≠ none
  power_le : ∀ p ∈ power, p.natAbs ≤ powerLimit

namespace Numeral

def chars (n : Numeral) : List Char :=
  n.whole ++ (fractionChars n.fraction ++ powerChars n.power)

def significand (n : Numeral) : Nat :=
  Nat.ofDigitChars 10 (n.whole ++ n.fraction) 0

def exponent (n : Numeral) : Int :=
  n.power.getD 0 - n.fraction.length

end Numeral

/-- A number in digits begins with one. -/
theorem exists_toDigits_eq_cons (n : Nat) (rest : Bytes) :
    ∃ b text, (Nat.toDigits 10 n).map byte ++ rest = b :: text ∧ isDigit b = true := by
  cases hdigits : Nat.toDigits 10 n with
  | nil => exact absurd hdigits Nat.toDigits_ne_nil
  | cons c cs =>
      refine ⟨byte c, cs.map byte ++ rest, rfl, isDigit_byte ?_⟩
      exact digits_toDigits n c (hdigits ▸ List.mem_cons_self)

theorem readPower_chars {power : Int} (h : power.natAbs ≤ powerLimit) (hrest : NoDigit rest) :
    readPower negative digits scale
        (byte (if power < 0 then '-' else '+') ::
          ((Nat.toDigits 10 power.natAbs).map byte ++ rest)) =
      (toFloat negative digits (scale + power)).map (·, rest) := by
  have hvalue : Nat.ofDigitChars 10 (Nat.toDigits 10 power.natAbs) 0 = power.natAbs :=
    Nat.ofDigitChars_ten_toDigits
  have hgather : gatherDigits powerLimit 0 0 ((Nat.toDigits 10 power.natAbs).map byte ++ rest) =
      (power.natAbs, 0 + (Nat.toDigits 10 power.natAbs).length, rest) := by
    rw [gatherDigits_eq (digits_toDigits _) (by rwa [hvalue]) hrest, hvalue]
  have hover : rest.head?.any isDigit = false := by
    cases rest with
    | nil => rfl
    | cons b rest => simp [hrest b rfl]
  have hsign : ((if byte (if power < 0 then '-' else '+') = byte '+' then
        (false, (Nat.toDigits 10 power.natAbs).map byte ++ rest)
      else if byte (if power < 0 then '-' else '+') = byte '-' then
        (true, (Nat.toDigits 10 power.natAbs).map byte ++ rest)
      else (false, byte (if power < 0 then '-' else '+') ::
        ((Nat.toDigits 10 power.natAbs).map byte ++ rest))) : Bool × Bytes) =
      (decide (power < 0), (Nat.toDigits 10 power.natAbs).map byte ++ rest) := by
    by_cases hneg : power < 0
    · rw [if_pos hneg, if_neg (by decide), if_pos rfl, decide_eq_true hneg]
    · rw [if_neg hneg, if_pos rfl, decide_eq_false hneg]
  have hscale : (if decide (power < 0) = true then scale - (power.natAbs : Int)
      else scale + power.natAbs) = scale + power := by
    by_cases hneg : power < 0
    · rw [if_pos (decide_eq_true hneg)]
      omega
    · rw [if_neg (by simpa using hneg)]
      omega
  obtain ⟨b, text, htext, hdigit⟩ := exists_toDigits_eq_cons power.natAbs rest
  simp only [readPower, hsign]
  simp only [htext] at hgather ⊢
  simp only [hdigit, hgather, hover, hscale]
  rw [if_neg (by decide), if_neg (by decide)]
  cases toFloat negative digits (scale + power) <;> rfl

theorem finishFloat_ends (h : Ends rest) :
    finishFloat negative digits scale rest = (toFloat negative digits scale).map (·, rest) := by
  cases rest with
  | nil => rfl
  | cons b rest =>
      obtain ⟨_, _, hpower⟩ := h b rfl
      simp [finishFloat, hpower]

theorem finishFloat_chars {power : Option Int} (hpower : ∀ p ∈ power, p.natAbs ≤ powerLimit)
    (h : Ends rest) :
    finishFloat negative digits scale ((powerChars power).map byte ++ rest) =
      (toFloat negative digits (scale + power.getD 0)).map (·, rest) := by
  cases power with
  | none =>
      rw [Option.getD_none, add_zero]
      exact finishFloat_ends h
  | some p =>
      have hmark : isPowerMark (byte 'e') = true := by decide
      simp only [powerChars, List.map_cons, List.cons_append, finishFloat, hmark, if_true]
      exact readPower_chars (hpower p rfl) h.noDigit

/-- What follows the digits of a number is no further digit. -/
theorem noDigit_chars (power : Option Int) (h : Ends rest) :
    NoDigit ((powerChars power).map byte ++ rest) := by
  cases power with
  | none => exact h.noDigit
  | some p =>
      intro b hb
      cases hb
      decide

/-- The fraction is taken up as far as it fits. -/
theorem readFraction_chars (negative : Bool) (scale : Int) {c : Char} {cs : List Char}
    (h : Digits (c :: cs)) (hfits : digits ≤ digitLimit) :
    ∃ taken left, c :: cs = taken ++ left ∧ Nat.ofDigitChars 10 taken digits ≤ digitLimit ∧
      ∀ tail, NoDigit tail → readFraction negative digits scale ((c :: cs).map byte ++ tail) =
        finishFloat negative (Nat.ofDigitChars 10 taken digits) (scale - taken.length) tail := by
  obtain ⟨taken, left, hsplit, htaken, _, hgather⟩ := exists_gathered digitLimit digits 0 h
  refine ⟨taken, left, hsplit, htaken hfits, fun tail htail => ?_⟩
  have hdigit := isDigit_byte (h c List.mem_cons_self)
  have hdrop : ((left.map byte ++ tail).dropWhile isDigit) = tail := by
    have hleft : ∀ b ∈ left.map byte, isDigit b = true := by
      intro b hb
      obtain ⟨d, hd, rfl⟩ := List.mem_map.mp hb
      exact isDigit_byte (h d (hsplit ▸ List.mem_append_right taken hd))
    rw [List.dropWhile_append_of_pos hleft]
    cases tail with
    | nil => rfl
    | cons b tail => rw [List.dropWhile_cons_of_neg (by simp [htail b rfl])]
  have hgather := hgather tail htail
  rw [List.map_cons, List.cons_append] at hgather ⊢
  simp only [readFraction, hdigit, hgather, hdrop]
  rw [if_neg (by decide), Nat.zero_add]

namespace Numeral

/-- A numeral is read as the decimal of those of its digits that fit. -/
theorem readUnsigned_chars (n : Numeral) (negative : Bool) :
    ∃ taken left, n.fraction = taken ++ left ∧
      Nat.ofDigitChars 10 (n.whole ++ taken) 0 ≤ digitLimit ∧
      ∀ rest, Ends rest → readUnsigned negative (n.chars.map byte ++ rest) =
        (toFloat negative (Nat.ofDigitChars 10 (n.whole ++ taken) 0)
          (n.power.getD 0 - taken.length)).map fun x => (.float x, rest) := by
  obtain ⟨whole, fraction, power, starts, digits, fits, isFloat, power_le⟩ := n
  simp only [chars, List.map_append, List.append_assoc]
  cases fraction with
  | nil =>
      obtain ⟨p, rfl⟩ := Option.ne_none_iff_exists'.mp (isFloat.resolve_left fun h => h rfl)
      refine ⟨[], [], rfl, by rwa [List.append_nil], fun rest h => ?_⟩
      have hread : readPower negative (Nat.ofDigitChars 10 whole 0) 0
          (byte (if p < 0 then '-' else '+') :: ((Nat.toDigits 10 p.natAbs).map byte ++ rest)) =
            (toFloat negative (Nat.ofDigitChars 10 whole 0) (0 + p)).map (·, rest) :=
        readPower_chars (power_le p rfl) h.noDigit
      have hpoint : byte 'e' ≠ byte '.' := by decide
      have hmark : isPowerMark (byte 'e') = true := by decide
      have hwhole := readUnsigned_digits negative starts fits (noDigit_chars (some p) h)
      simp only [powerChars, List.map_cons, List.cons_append, if_neg hpoint, if_pos hmark,
        hread] at hwhole
      simp only [powerChars, fractionChars, List.map_nil, List.nil_append, List.map_cons,
        List.cons_append, hwhole, List.append_nil, List.length_nil, Option.getD_some,
        Nat.cast_zero, sub_zero, zero_add]
      cases toFloat negative (Nat.ofDigitChars 10 whole 0) p <;> rfl
  | cons c cs =>
      obtain ⟨taken, left, hsplit, htaken, hread⟩ := readFraction_chars negative 0 digits fits
      refine ⟨taken, left, hsplit, by rwa [Nat.ofDigitChars_append], fun rest h => ?_⟩
      have hnext : NoDigit (byte '.' :: ((c :: cs).map byte ++
          ((powerChars power).map byte ++ rest))) := by
        intro b hb
        cases hb
        decide
      have hread := hread _ (noDigit_chars power h)
      have hwhole := readUnsigned_digits negative starts fits hnext
      rw [finishFloat_chars power_le h] at hread
      rw [Nat.ofDigitChars_append, sub_eq_neg_add, ← zero_sub]
      simp only [if_true, hread] at hwhole
      rw [fractionChars, List.map_cons, List.cons_append, hwhole]
      cases toFloat negative (Nat.ofDigitChars 10 taken (Nat.ofDigitChars 10 whole 0))
        (0 - taken.length + power.getD 0) <;> rfl

/-- A numeral well inside the range of doubles is not refused. -/
theorem exists_readUnsigned (n : Numeral) (negative : Bool) (hpower : n.power.getD 0 ≤ 302)
    (hbound : (n.significand : ℝ) * 10 ^ n.exponent ≤ 2 ^ (1000 : Int)) :
    ∃ x, ∀ rest, Ends rest →
      readUnsigned negative (n.chars.map byte ++ rest) = .ok (.float x, rest) := by
  obtain ⟨taken, left, hsplit, hlimit, hread⟩ := n.readUnsigned_chars negative
  set d := Nat.ofDigitChars 10 (n.whole ++ taken) 0 with hd
  have hcut : (d : ℝ) * 10 ^ left.length ≤ n.significand := by
    have hnat : 10 ^ left.length * d ≤ n.significand := by
      rw [significand, hsplit, ← List.append_assoc, Nat.ofDigitChars_append,
        Nat.ofDigitChars_eq_ofDigitChars_zero]
      exact Nat.le_add_right _ _
    rw [mul_comm]
    exact_mod_cast hnat
  have hexponent : n.exponent = n.power.getD 0 - taken.length - left.length := by
    rw [exponent, hsplit, List.length_append]
    omega
  have hsmall : (d : ℝ) * 10 ^ (n.power.getD 0 - taken.length).toNat ≤ 2 ^ (1000 : Int) := by
    rcases Int.le_total 0 (n.power.getD 0 - taken.length) with hnonneg | hneg
    · have hpow : (10 : ℝ) ^ (n.power.getD 0 - taken.length).toNat =
          10 ^ left.length * 10 ^ n.exponent := by
        rw [← zpow_natCast, ← zpow_natCast, ← zpow_add₀ (by norm_num), hexponent]
        congr 1
        omega
      rw [hpow, ← mul_assoc]
      exact (mul_le_mul_of_nonneg_right hcut (by positivity)).trans hbound
    · have hreal : (d : ℝ) ≤ 2 ^ (64 : Int) := by
        have hnat : d ≤ 2 ^ 64 := hlimit.trans (by decide)
        exact_mod_cast hnat
      rw [Int.toNat_of_nonpos hneg, pow_zero, mul_one]
      exact hreal.trans (zpow_le_zpow_right₀ (by norm_num) (by decide))
  obtain ⟨x, hx⟩ := exists_toFloat negative hlimit (by omega) hsmall
  refine ⟨x, fun rest hrest => ?_⟩
  rw [hread rest hrest, hx]
  rfl

end Numeral

theorem ofDigitChars_lt {cs : List Char} (h : Digits cs) (value : Nat) :
    Nat.ofDigitChars 10 cs value < 10 ^ cs.length * (value + 1) := by
  induction cs generalizing value with
  | nil => simp
  | cons c cs ih =>
      have hrange := range_of_isDigit (h c List.mem_cons_self)
      have hzero : '0'.toNat = 48 := rfl
      have hstep : 10 * value + (c.toNat - '0'.toNat) + 1 ≤ 10 * (value + 1) := by omega
      rw [Nat.ofDigitChars_cons, List.length_cons, Nat.pow_succ, Nat.mul_assoc]
      exact Nat.lt_of_lt_of_le (ih (fun d hd => h d (List.mem_cons_of_mem c hd)) _)
        (Nat.mul_le_mul_left _ hstep)

/-- Sixteen digits fit 64 bits. -/
theorem ofDigitChars_le_digitLimit {cs : List Char} (h : Digits cs) (hlength : cs.length ≤ 16) :
    Nat.ofDigitChars 10 cs 0 ≤ digitLimit := by
  have hlt := ofDigitChars_lt h 0
  have hpow : 10 ^ cs.length ≤ 10 ^ 16 := Nat.pow_le_pow_right (by decide) hlength
  have hlimit : 10 ^ 16 ≤ digitLimit := by decide
  omega

theorem ofDigitChars_replicate_zero (n value : Nat) :
    Nat.ofDigitChars 10 (List.replicate n '0') value = value * 10 ^ n := by
  induction n generalizing value with
  | zero => simp
  | succ n ih =>
      rw [List.replicate_succ, Nat.ofDigitChars_cons, ih, Nat.pow_succ]
      have hzero : '0'.toNat - '0'.toNat = 0 := rfl
      rw [hzero]
      ring

theorem digits_replicate_zero (n : Nat) : Digits (List.replicate n '0') := by
  intro c hc
  rw [List.eq_of_mem_replicate hc]
  rfl

theorem Starts.take {cs : List Char} (h : Starts cs) {n : Nat} (hn : 0 < n) :
    Starts (cs.take n) := by
  obtain ⟨n, rfl⟩ := Nat.exists_eq_succ_of_ne_zero hn.ne'
  cases cs with
  | nil => exact absurd rfl h.ne_nil
  | cons c cs =>
      refine ⟨fun d hd => h.digits d (List.mem_of_mem_take hd), by simp, fun hzero => ?_⟩
      obtain ⟨_, rfl⟩ := List.cons.inj (h.zero hzero)
      simp_all

theorem Starts.append {cs ds : List Char} (h : Starts cs) (hd : Digits ds)
    (hzero : cs = ['0'] → ds = []) : Starts (cs ++ ds) := by
  cases cs with
  | nil => exact absurd rfl h.ne_nil
  | cons c cs =>
      refine ⟨?_, by simp, fun hfirst => ?_⟩
      · intro d hmem
        rcases List.mem_append.mp hmem with hmem | hmem
        · exact h.digits d hmem
        · exact hd d hmem
      · have hall := h.zero hfirst
        rw [hall, hzero hall]
        rfl

/-- A text is that of a numeral that stands for a decimal. -/
def IsNumeralOf (s : Decimal.Scientific) (cs : List Char) : Prop :=
  ∃ n : Numeral, cs = n.chars ∧
    (n.significand : ℝ) * 10 ^ n.exponent = s.digits * 10 ^ s.exponent ∧ n.power.getD 0 ≤ 302

section Forms

variable {s : Decimal.Scientific} {places : Nat}

theorem isNumeralOf_mk {whole fraction : List Char} (power : Option Int) (hstarts : Starts whole)
    (hdigits : Digits fraction) (hlength : whole.length ≤ 16)
    (hfloat : fraction ≠ [] ∨ power ≠ none) (hpower : ∀ p ∈ power, -400 ≤ p ∧ p ≤ 302)
    (hvalue : (Nat.ofDigitChars 10 (whole ++ fraction) 0 : ℝ) *
      10 ^ (power.getD 0 - fraction.length) = s.digits * 10 ^ s.exponent) :
    IsNumeralOf s (whole ++ (fractionChars fraction ++ powerChars power)) := by
  have hlimit : 400 ≤ powerLimit := by decide
  have hfits := ofDigitChars_le_digitLimit hstarts.digits hlength
  refine ⟨⟨whole, fraction, power, hstarts, hdigits, hfits, hfloat, fun p hp => ?_⟩, rfl, hvalue,
    ?_⟩
  · have hrange := hpower p hp
    omega
  · cases power with
    | none => exact (by decide : (0 : Int) ≤ 302)
    | some p => exact (hpower p rfl).2

theorem fractionChars_of_ne_nil {cs : List Char} (h : cs ≠ []) : fractionChars cs = '.' :: cs := by
  cases cs with
  | nil => exact absurd rfl h
  | cons c cs => rfl

/-- The digits end before the point. -/
theorem isNumeralOf_whole (hzero : s.digits = 0 → s.exponent = 0) (hexponent : 0 ≤ s.exponent)
    (hlength : (Nat.toDigits 10 s.digits).length + s.exponent.toNat ≤ 16) :
    IsNumeralOf s
      (Nat.toDigits 10 s.digits ++ List.replicate s.exponent.toNat '0' ++ ['.', '0']) := by
  have hstarts : Starts (Nat.toDigits 10 s.digits ++ List.replicate s.exponent.toNat '0') := by
    refine (starts_toDigits s.digits).append (digits_replicate_zero _) fun hdigits => ?_
    have hvalue := Nat.ofDigitChars_ten_toDigits (n := s.digits)
    rw [hdigits] at hvalue
    rw [hzero hvalue.symm, Int.toNat_zero, List.replicate_zero]
  have hsignificand : Nat.ofDigitChars 10 (Nat.toDigits 10 s.digits ++
      List.replicate s.exponent.toNat '0' ++ ['0']) 0 = s.digits * 10 ^ s.exponent.toNat * 10 := by
    rw [Nat.ofDigitChars_append, Nat.ofDigitChars_append, Nat.ofDigitChars_ten_toDigits,
      ofDigitChars_replicate_zero]
    exact Nat.mul_comm _ _
  have hpower : (10 : ℝ) ^ s.exponent.toNat = 10 ^ s.exponent := by
    rw [← zpow_natCast, Int.toNat_of_nonneg hexponent]
  refine isNumeralOf_mk none hstarts (digits_replicate_zero 1) (by simpa using hlength)
    (.inl (by simp)) (by simp) ?_
  change ((Nat.ofDigitChars 10 (Nat.toDigits 10 s.digits ++
    List.replicate s.exponent.toNat '0' ++ ['0']) 0 : Nat) : ℝ) * 10 ^ ((0 : Int) - (1 : Nat)) = _
  rw [hsignificand]
  push_cast
  rw [hpower]
  norm_num
  ring

/-- The point stands among the digits. -/
theorem isNumeralOf_split (hplaces : s.exponent = -(places : Int)) (hpos : 0 < places)
    (hlt : places < (Nat.toDigits 10 s.digits).length)
    (hlength : (Nat.toDigits 10 s.digits).length - places ≤ 16) :
    IsNumeralOf s ((Nat.toDigits 10 s.digits).take ((Nat.toDigits 10 s.digits).length - places) ++
      '.' :: (Nat.toDigits 10 s.digits).drop ((Nat.toDigits 10 s.digits).length - places)) := by
  have hvalue := Nat.ofDigitChars_ten_toDigits (n := s.digits)
  have hall := starts_toDigits s.digits
  generalize Nat.toDigits 10 s.digits = ds at *
  have hlengthDrop : (ds.drop (ds.length - places)).length = places := by
    rw [List.length_drop]
    omega
  have hne : ds.drop (ds.length - places) ≠ [] := by
    intro hnil
    rw [hnil] at hlengthDrop
    exact hpos.ne hlengthDrop
  rw [← fractionChars_of_ne_nil hne, ← List.append_nil (fractionChars _)]
  refine isNumeralOf_mk none (hall.take (by omega))
    (fun c hc => hall.digits c (List.mem_of_mem_drop hc)) ?_ (.inl hne) (by simp) ?_
  · rw [List.length_take]
    omega
  · rw [List.take_append_drop, hlengthDrop, hvalue, hplaces, Option.getD_none, zero_sub]

/-- The point stands in front of the digits. -/
theorem isNumeralOf_small (hplaces : s.exponent = -(places : Int))
    (hle : (Nat.toDigits 10 s.digits).length ≤ places) :
    IsNumeralOf s ('0' :: '.' :: (List.replicate (places - (Nat.toDigits 10 s.digits).length) '0' ++
      Nat.toDigits 10 s.digits)) := by
  have hvalue := Nat.ofDigitChars_ten_toDigits (n := s.digits)
  have hall := starts_toDigits s.digits
  generalize Nat.toDigits 10 s.digits = ds at *
  have hne : List.replicate (places - ds.length) '0' ++ ds ≠ [] := by
    simp [hall.ne_nil]
  have hlength : (List.replicate (places - ds.length) '0' ++ ds).length = places := by
    rw [List.length_append, List.length_replicate]
    omega
  have hdigits : Digits (List.replicate (places - ds.length) '0' ++ ds) := by
    intro c hc
    rcases List.mem_append.mp hc with hc | hc
    · exact digits_replicate_zero _ c hc
    · exact hall.digits c hc
  have hsame : '0' :: '.' :: (List.replicate (places - ds.length) '0' ++ ds) =
      ['0'] ++
        (fractionChars (List.replicate (places - ds.length) '0' ++ ds) ++ powerChars none) := by
    rw [fractionChars_of_ne_nil hne]
    simp [powerChars]
  rw [hsame]
  refine isNumeralOf_mk none (starts_toDigits 0) hdigits (by decide) (.inl hne) (by simp) ?_
  have hzeros : Nat.ofDigitChars 10 (['0'] ++ List.replicate (places - ds.length) '0') 0 = 0 := by
    rw [← List.replicate_one, List.replicate_append_replicate, ofDigitChars_replicate_zero,
      Nat.zero_mul]
  rw [hlength, ← List.append_assoc, Nat.ofDigitChars_append, hzeros, hvalue, hplaces,
    Option.getD_none, zero_sub]

/-- One digit stands in front of the point. -/
theorem isNumeralOf_power {power : Int}
    (hpower : power = s.exponent + (Nat.toDigits 10 s.digits).length - 1)
    (hlow : -400 ≤ power) (hhigh : power ≤ 302) :
    IsNumeralOf s ((Nat.toDigits 10 s.digits).take 1 ++
      (fractionChars ((Nat.toDigits 10 s.digits).drop 1) ++ powerChars (some power))) := by
  have hvalue := Nat.ofDigitChars_ten_toDigits (n := s.digits)
  have hall := starts_toDigits s.digits
  generalize Nat.toDigits 10 s.digits = ds at *
  have hlength : 0 < ds.length := List.length_pos_of_ne_nil hall.ne_nil
  refine isNumeralOf_mk (some power) (hall.take Nat.one_pos)
    (fun c hc => hall.digits c (List.mem_of_mem_drop hc)) ?_ (.inr (by simp)) ?_ ?_
  · rw [List.length_take]
    omega
  · rintro p ⟨⟩
    exact ⟨hlow, hhigh⟩
  · rw [List.take_append_drop, hvalue, List.length_drop, Option.getD_some]
    congr 2
    omega

theorem length_digitsOf (n : Nat) :
    (Decimal.digitsOf n).length = (Nat.toDigits 10 n).length := by
  rw [Decimal.digitsOf, String.length_ofList]

theorem isNumeralOf_writePositional (hzero : s.digits = 0 → s.exponent = 0)
    (hpower : s.exponent + (Nat.toDigits 10 s.digits).length - 1 ≤ 15) :
    IsNumeralOf s (Decimal.jsonNumber.writePositional s).toList := by
  have hpos : 0 < (Nat.toDigits 10 s.digits).length := Nat.length_toDigits_pos
  unfold Decimal.Layout.writePositional
  dsimp only
  rw [length_digitsOf]
  split
  · next hnonneg =>
      have htext : (Decimal.digitsOf s.digits ++ Decimal.zeros s.exponent.toNat ++
          Decimal.jsonNumber.wholeEnd).toList = Nat.toDigits 10 s.digits ++
            List.replicate s.exponent.toNat '0' ++ ['.', '0'] := by
        simp [Decimal.digitsOf, Decimal.zeros, Decimal.jsonNumber]
      rw [htext]
      exact isNumeralOf_whole hzero hnonneg (by omega)
  · next hneg =>
      have hplaces : s.exponent = -((-s.exponent).toNat : Int) := by omega
      split
      · next hlt =>
          simp only [Decimal.digitsOf, String.toList_append, String.toList_ofList,
            List.append_assoc]
          exact isNumeralOf_split hplaces (by omega) hlt (by omega)
      · next hge =>
          simp only [Decimal.digitsOf, Decimal.zeros, String.toList_append,
            String.toList_ofList, List.append_assoc]
          exact isNumeralOf_small hplaces (Nat.le_of_not_lt hge)

theorem toList_writeExponent (n : Nat) (power : Int) :
    (Decimal.writeExponent (Decimal.digitsOf n) power).toList = (Nat.toDigits 10 n).take 1 ++
      (fractionChars ((Nat.toDigits 10 n).drop 1) ++ powerChars (some power)) := by
  simp only [Decimal.writeExponent, Decimal.digitsOf, String.toList_append,
    String.toList_ofList, List.append_assoc]
  cases (Nat.toDigits 10 n).drop 1 <;> by_cases hneg : power < 0 <;>
    simp [fractionChars, powerChars, hneg]

/-- Whatever form a decimal is written in, it is a numeral that stands for it. -/
theorem isNumeralOf_writeScientific (hzero : s.digits = 0 → s.exponent = 0)
    (hlow : -400 ≤ s.exponent + (Nat.toDigits 10 s.digits).length - 1)
    (hhigh : s.exponent + (Nat.toDigits 10 s.digits).length - 1 ≤ 302) :
    IsNumeralOf s (Decimal.jsonNumber.writeScientific s).toList := by
  unfold Decimal.Layout.writeScientific
  dsimp only
  rw [length_digitsOf]
  split
  · next hpositional =>
      apply isNumeralOf_writePositional hzero
      rcases Bool.or_eq_true_iff.mp hpositional with hdigits | hpower
      · have hdigits := of_decide_eq_true hdigits
        rw [hzero hdigits, hdigits]
        decide
      · exact of_decide_eq_true (Bool.and_eq_true_iff.mp hpower).2
  · rw [toList_writeExponent]
    exact isNumeralOf_power rfl hlow hhigh

end Forms

/-- Characters of one byte that control nothing. -/
def Printable (cs : List Char) : Prop :=
  ∀ c ∈ cs, 0x20 ≤ c.toNat ∧ c.toNat < 0x80

theorem Printable.append {cs ds : List Char} (h : Printable cs) (h' : Printable ds) :
    Printable (cs ++ ds) := by
  intro c hc
  rcases List.mem_append.mp hc with hc | hc
  · exact h c hc
  · exact h' c hc

theorem Digits.printable {cs : List Char} (h : Digits cs) : Printable cs := by
  intro c hc
  have hrange := range_of_isDigit (h c hc)
  omega

theorem printable_digitsOf (n : Nat) : Printable (Decimal.digitsOf n).toList := by
  rw [Decimal.digitsOf, String.toList_ofList]
  exact Digits.printable (digits_toDigits n)

theorem printable_zeros (n : Nat) : Printable (Decimal.zeros n).toList := by
  rw [Decimal.zeros, String.toList_ofList]
  exact Digits.printable (digits_replicate_zero n)

theorem printable_writeScientific (s : Decimal.Scientific) :
    Printable (Decimal.jsonNumber.writeScientific s).toList := by
  have htake : ∀ n, Printable ((Decimal.digitsOf s.digits).toList.take n) :=
    fun n c hc => printable_digitsOf _ c (List.mem_of_mem_take hc)
  have hdrop : ∀ n, Printable ((Decimal.digitsOf s.digits).toList.drop n) :=
    fun n c hc => printable_digitsOf _ c (List.mem_of_mem_drop hc)
  have hpoint : Printable ".".toList := by simp [Printable]
  unfold Decimal.Layout.writeScientific
  dsimp only
  split
  · unfold Decimal.Layout.writePositional
    dsimp only
    split
    · have hend : Printable Decimal.jsonNumber.wholeEnd.toList := by
        simp [Decimal.jsonNumber, Printable]
      simp only [String.toList_append]
      exact ((printable_digitsOf _).append (printable_zeros _)).append hend
    · split
      · simp only [String.toList_append, String.toList_ofList]
        exact ((htake _).append hpoint).append (hdrop _)
      · have hzero : Printable "0.".toList := by simp [Printable]
        simp only [String.toList_append]
        exact (hzero.append (printable_zeros _)).append (printable_digitsOf _)
  · have hmark : Printable "e".toList := by simp [Printable]
    unfold Decimal.writeExponent
    dsimp only
    simp only [String.toList_append, String.toList_ofList]
    refine ((((htake 1).append ?_).append hmark).append ?_).append (printable_digitsOf _)
    · split
      · simp [Printable]
      · simp only [String.toList_append, String.toList_ofList]
        exact hpoint.append (hdrop 1)
    · split <;> simp [Printable]

/-- No written double has a control character, whatever its value. -/
theorem printable_write (x : Float) : Printable (Decimal.jsonNumber.write x).toList := by
  have hnull : Printable "null".toList := by simp [Printable]
  unfold Decimal.Layout.write
  split
  · exact hnull
  · exact hnull
  · rw [String.toList_append]
    refine Printable.append ?_ (printable_writeScientific _)
    split <;> simp [Printable]

theorem encode_write (x : Float) :
    encode (Decimal.jsonNumber.write x) = (Decimal.jsonNumber.write x).toList.map byte :=
  encode_of_ascii fun c hc => (printable_write x c hc).2

section Written

open Double (Canonical magnitude value?)

variable {m : Nat} {e : Int} {x : Float}

theorem Numeral.readNumber_chars (n : Numeral) (rest : Bytes) :
    readNumber (n.chars.map byte ++ rest) = readUnsigned false (n.chars.map byte ++ rest) := by
  rw [Numeral.chars, List.map_append, List.append_assoc]
  exact readNumber_unsigned n.starts

/-- A numeral may have a sign. -/
theorem Numeral.exists_readNumber (n : Numeral) (negative : Bool) (hpower : n.power.getD 0 ≤ 302)
    (hbound : (n.significand : ℝ) * 10 ^ n.exponent ≤ 2 ^ (1000 : Int)) :
    ∃ x, ∀ rest, Ends rest →
      readNumber ((if negative then [byte '-'] else []) ++ (n.chars.map byte ++ rest)) =
        .ok (.float x, rest) := by
  obtain ⟨x, hx⟩ := n.exists_readUnsigned negative hpower hbound
  refine ⟨x, fun rest hrest => ?_⟩
  cases negative with
  | false => exact (n.readNumber_chars rest).trans (hx rest hrest)
  | true => exact readNumber_negative.trans (hx rest hrest)

/-- Whether a double is finite and no bigger than a whole number, whatever its sign. -/
def isAtMost (x : Float) (n : Nat) : Bool :=
  match x.toModel.unpack with
  | .zero _ => true
  | .finite _ m e _ => decide (m * 2 ^ e.toNat ≤ n * 2 ^ (-e).toNat)
  | _ => false

theorem exists_value?_of_isAtMost {n : Nat} (h : isAtMost x n = true) :
    ∃ r : ℝ, value? x = some (r : EReal) ∧ |r| ≤ n := by
  unfold isAtMost at h
  unfold value?
  split at h
  · next s hzero => exact ⟨0, by rw [hzero]; rfl, by simp⟩
  · next s m e hm hfinite =>
      have hreal : (m : ℝ) * 2 ^ e.toNat ≤ n * 2 ^ (-e).toNat := by
        exact_mod_cast of_decide_eq_true h
      rw [Decimal.pow_toNat_eq (by norm_num : (2 : ℝ) ≠ 0) e, ← mul_assoc] at hreal
      have hle : magnitude m e ≤ n := le_of_mul_le_mul_right hreal (by positivity)
      have habs : |magnitude m e| ≤ n := by rwa [abs_of_pos (Double.magnitude_pos hm e)]
      rw [hfinite]
      cases s with
      | negative => exact ⟨-magnitude m e, rfl, by rwa [abs_neg]⟩
      | positive => exact ⟨magnitude m e, rfl, habs⟩
  · cases h

theorem isAtMost_limit : isAtMost 1e300 (2 ^ 999) = true ∧ isAtMost (-1e300) (2 ^ 999) = true := by
  decide +kernel

/-- A double of a magnitude below `1e300`, taken apart. -/
theorem exists_finite_of_lt (hlow : -1e300 < x) (hhigh : x < 1e300) :
    ∃ negative m e, Decimal.Binary.ofFloat x = .finite negative m e ∧ Canonical m e ∧
      magnitude m e ≤ 2 ^ (999 : Int) := by
  obtain ⟨p, v, hp, hv, hpv⟩ := Double.lt_iff.mp hlow
  obtain ⟨v', q, hv', hq, hvq⟩ := Double.lt_iff.mp hhigh
  obtain ⟨l, hl, hlle⟩ := exists_value?_of_isAtMost isAtMost_limit.2
  obtain ⟨r, hr, hrle⟩ := exists_value?_of_isAtMost isAtMost_limit.1
  cases hl.symm.trans hp
  cases hr.symm.trans hq
  cases hv.symm.trans hv'
  rw [Nat.cast_pow, Nat.cast_ofNat, ← zpow_ofNat] at hlle hrle
  unfold value? at hv
  rcases hx : x.toModel.unpack with s | _ | s | ⟨s, m, e, hm⟩ <;> rw [hx] at hv
  · cases s <;> cases hv
    · exact absurd hpv not_lt_bot
    · exact absurd hvq not_top_lt
  · cases hv
  · obtain ⟨negative, hparts⟩ := Decimal.Binary.ofFloat_of_zero hx
    refine ⟨negative, 0, -1074, hparts, ⟨by decide, le_rfl, .inr rfl, by decide⟩, ?_⟩
    rw [magnitude, Nat.cast_zero, zero_mul]
    positivity
  · obtain ⟨negative, hparts⟩ := Decimal.Binary.ofFloat_of_unpack hx
    refine ⟨negative, m, e, hparts, Double.canonical_of_unpack hx, ?_⟩
    cases s <;> cases hv
    · have hlt := EReal.coe_lt_coe_iff.mp hpv
      linarith [(abs_le.mp hlle).1]
    · have hlt := EReal.coe_lt_coe_iff.mp hvq
      linarith [(abs_le.mp hrle).2]

/-- A double of a magnitude below `1e300` is written as a number. -/
theorem exists_readNumber_write (hlow : -1e300 < x) (hhigh : x < 1e300) :
    ∃ y, ∀ rest, Ends rest →
      readNumber (encode (Decimal.jsonNumber.write x) ++ rest) = .ok (.float y, rest) := by
  obtain ⟨negative, m, e, hx, hcanonical, hbound⟩ := exists_finite_of_lt hlow hhigh
  have htie : Decimal.jsonNumber.tie = .toEven := rfl
  have hexponent := Decimal.le_exponent_shortest .toEven hcanonical
  have hpos : 0 < (Nat.toDigits 10 (Decimal.shortest .toEven m e).digits).length :=
    Nat.length_toDigits_pos
  obtain ⟨n, hchars, hvalue, hpower⟩ := isNumeralOf_writeScientific
    (Decimal.exponent_shortest_of_zero .toEven hcanonical) (by omega)
    (Decimal.power_shortest_le .toEven hcanonical hbound)
  have hsmall : (n.significand : ℝ) * 10 ^ n.exponent ≤ 2 ^ (1000 : Int) :=
    calc (n.significand : ℝ) * 10 ^ n.exponent ≤ 2 * magnitude m e :=
          hvalue.trans_le (Decimal.shortest_le .toEven hcanonical)
      _ ≤ 2 * 2 ^ (999 : Int) := by linarith
      _ = 2 ^ (1000 : Int) := (zpow_one_add₀ (by norm_num) 999).symm
  have hsign : (if negative then "-" else "").toList = if negative then ['-'] else [] := by
    split <;> simp
  have htext : (Decimal.jsonNumber.write x).toList =
      (if negative then ['-'] else []) ++ n.chars := by
    rw [Decimal.Layout.write, hx]
    dsimp only
    rw [String.toList_append, hsign, htie, hchars]
  obtain ⟨y, hy⟩ := n.exists_readNumber negative hpower hsmall
  refine ⟨y, fun rest hrest => ?_⟩
  rw [encode_write, htext, List.map_append, List.append_assoc, ← hy rest hrest]
  cases negative <;> rfl

end Written

end FlowVerdict.Json
