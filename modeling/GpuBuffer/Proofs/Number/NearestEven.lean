import GpuBuffer.Proofs.Number.Magnitude
import GpuBuffer.Proofs.Number.Nearest

namespace GpuBuffer

theorem nearer_between {q r s v : ℚ} (tied : |q - r| = |q - s|) (above : r < v) (below : v < s) :
    |q - v| < |q - r| := by
  rcases abs_eq_abs.mp tied with same | mirrored
  · linarith
  · rw [abs_of_pos (a := q - r) (by linarith), abs_lt]
    constructor <;> linarith

namespace Binary32

/-- A magnitude that no other counts nearer to a number of units than, an even one if another is as near. -/
structure NearestMagnitude (t : ℚ) (m : Nat) : Prop where
  nearest : ∀ n, |t - units m| ≤ |t - units n|
  even : ∀ n, n ≠ m → |t - units n| = |t - units m| → Even m

theorem NearestMagnitude.of_units (m : Nat) : NearestMagnitude (units m) m where
  nearest := by
    intro n
    rw [sub_self, abs_zero]
    exact abs_nonneg _
  even := by
    intro n other tied
    rw [sub_self, abs_zero, abs_eq_zero, sub_eq_zero, Nat.cast_inj] at tied
    exact absurd (units_strictMono.injective tied).symm other

theorem NearestMagnitude.lt_infinityMagnitude {t : ℚ} {m : Nat} (nearest : NearestMagnitude t m)
    (inside : t ≤ units (infinityMagnitude - 1)) : m < infinityMagnitude := by
  refine lt_infinityMagnitude_of_units (Nat.not_lt.mp fun beyond => ?_)
  have farther : (units (infinityMagnitude - 1) : ℚ) < units m := by exact_mod_cast beyond
  have close := nearest.nearest (infinityMagnitude - 1)
  rw [abs_of_nonpos (by linarith), abs_of_nonpos (by linarith)] at close
  linarith

theorem NearestMagnitude.eq_of_units {m n : Nat} (nearest : NearestMagnitude (units m) n) : n = m := by
  have close := nearest.nearest m
  rw [sub_self, abs_zero, abs_nonpos_iff, sub_eq_zero, Nat.cast_inj] at close
  exact (units_strictMono.injective close).symm

/-- A magnitude counts whole multiples of a power, or it lies below all significands that are full at it and
then farther away than a significand that is nearest. -/
theorem multiple_or_farther {w : ℚ} {k s : Nat} (nearest : Nearest w s) (full : k = 0 ∨ 2 ^ 23 ≤ w) (n : Nat) :
    (∃ j : ℤ, (units n : ℚ) = j * 2 ^ k) ∨ |w - (s : ℤ)| * 2 ^ k < |w * 2 ^ k - units n| := by
  rcases dvd_units_or_lt k n with ⟨j, multiple⟩ | small
  · refine Or.inl ⟨j, ?_⟩
    rw [multiple]
    push_cast
    ring
  · rcases full with rfl | high
    · exact Or.inl ⟨units n, by simp⟩
    · have cast : (units n : ℚ) < 2 ^ 23 * 2 ^ k := by exact_mod_cast small
      have first : |w - (s : ℤ)| ≤ w - 2 ^ 23 := by
        have near := nearest (2 ^ 23)
        rwa [Int.cast_pow, Int.cast_ofNat, abs_of_nonneg (sub_nonneg.mpr high)] at near
      right
      calc |w - (s : ℤ)| * 2 ^ k ≤ (w - 2 ^ 23) * 2 ^ k := mul_le_mul_of_nonneg_right first (by positivity)
        _ < w * 2 ^ k - units n := by linarith
        _ ≤ |w * 2 ^ k - units n| := le_abs_self _

/-- A significand that is nearest has at most 24 bits, and all of them unless the power is the least. -/
theorem significand_of_nearest {w : ℚ} {k s : Nat} (nearest : Nearest w s) (below : w < 2 ^ 24)
    (full : k = 0 ∨ 2 ^ 23 ≤ w) : s ≤ 2 ^ 24 ∧ (k = 0 ∨ 2 ^ 23 ≤ s) := by
  obtain ⟨lower, upper⟩ := abs_le.mp (nearest_iff.mp nearest)
  rw [Int.cast_natCast] at lower upper
  constructor
  · have cast : (s : ℚ) < (2 ^ 24 + 1 : ℕ) := by push_cast; linarith
    exact Nat.lt_succ_iff.mp (Nat.cast_lt.mp cast)
  · refine full.imp_right fun high => ?_
    have cast : ((2 ^ 23 : ℕ) : ℚ) < (s + 1 : ℕ) := by push_cast; linarith
    exact Nat.lt_succ_iff.mp (Nat.cast_lt.mp cast)

/-- Rounding a significand to a whole number, ties to even, is rounding to a magnitude. -/
theorem nearestMagnitude_scaled {w : ℚ} {k s : Nat} (nearest : Nearest w s)
    (even : ∀ n : ℤ, n ≠ s → |w - n| = |w - s| → Even s) (below : w < 2 ^ 24) (full : k = 0 ∨ 2 ^ 23 ≤ w) :
    NearestMagnitude (w * 2 ^ k) (k * 2 ^ 23 + s) := by
  obtain ⟨short, normal⟩ := significand_of_nearest nearest below full
  have power : (0 : ℚ) < 2 ^ k := by positivity
  have scaled (x : ℚ) : |w * 2 ^ k - x * 2 ^ k| = |w - x| * 2 ^ k := by
    rw [← sub_mul, abs_mul, abs_of_pos power]
  have counted : (units (k * 2 ^ 23 + s) : ℚ) = (s : ℤ) * 2 ^ k := by
    rw [units_scaled short normal]
    push_cast
    rfl
  constructor
  · intro n
    rw [counted, scaled]
    rcases multiple_or_farther nearest full n with ⟨j, multiple⟩ | farther
    · rw [multiple, scaled]
      exact mul_le_mul_of_nonneg_right (nearest j) power.le
    · exact farther.le
  · intro n other tied
    rw [counted, scaled] at tied
    rcases multiple_or_farther nearest full n with ⟨j, multiple⟩ | farther
    · have different : j ≠ s := by
        rintro rfl
        exact other (units_strictMono.injective (Nat.cast_injective (multiple.trans counted.symm)))
      rw [multiple, scaled] at tied
      have evenSignificand := even j different (mul_right_cancel₀ power.ne' tied)
      rw [Nat.even_iff] at evenSignificand ⊢
      omega
    · exact absurd tied farther.ne'

/-- The magnitude that a quotient would be rounded to if there were no largest. -/
def roundMagnitude (num den : Nat) : Nat :=
  if num = 0 then 0
  else
    let unit := unitExponent num den
    (unit + 149).toNat * 2 ^ 23 + roundQuotient .toEven (num * 2 ^ (-unit).toNat) (den * 2 ^ unit.toNat)

theorem ofRatio_eq (sign : Bool) (num den : Nat) :
    ofRatio sign num den = ofMagnitude sign (min (roundMagnitude num den) infinityMagnitude) := by
  unfold ofRatio roundMagnitude
  split <;> rfl

/-- The last place is chosen so that the significand has 24 bits, or fewer at the least exponent. -/
theorem unitExponent_spec {num den : Nat} (numPositive : 0 < num) (denPositive : 0 < den) :
    let unit := unitExponent num den
    (-149 : ℤ) ≤ unit ∧ (num / den * 2 ^ (-unit) : ℚ) < 2 ^ 24 ∧
      ((unit + 149).toNat = 0 ∨ (2 : ℚ) ^ 23 ≤ num / den * 2 ^ (-unit)) := by
  intro unit
  obtain ⟨low, high⟩ := floorLog2_spec numPositive denPositive
  have coarse : floorLog2 num den - 23 ≤ unit := le_max_left _ _
  have power : (0 : ℚ) < 2 ^ (-unit) := by positivity
  refine ⟨le_max_right _ _, ?_, ?_⟩
  · calc (num / den * 2 ^ (-unit) : ℚ) < 2 ^ (floorLog2 num den + 1) * 2 ^ (-unit) :=
          mul_lt_mul_of_pos_right high power
      _ = 2 ^ (floorLog2 num den + 1 - unit) := by rw [← zpow_add₀ two_ne_zero]; rfl
      _ ≤ 2 ^ (24 : ℤ) := zpow_le_zpow_right₀ one_le_two (by omega)
  · rcases le_total (floorLog2 num den - 23) (-149) with subnormal | normal
    · left
      have least : unit = -149 := max_eq_right subnormal
      omega
    · right
      have exponent : floorLog2 num den + -unit = 23 := by
        have precise : unit = floorLog2 num den - 23 := max_eq_left normal
        omega
      calc (2 : ℚ) ^ (23 : ℤ) = 2 ^ floorLog2 num den * 2 ^ (-unit) := by
            rw [← zpow_add₀ two_ne_zero, exponent]
        _ ≤ num / den * 2 ^ (-unit) := mul_le_mul_of_nonneg_right low power.le

theorem nearestMagnitude_roundMagnitude (num : Nat) {den : Nat} (positive : 0 < den) :
    NearestMagnitude (num / den * 2 ^ 149) (roundMagnitude num den) := by
  rcases Nat.eq_zero_or_pos num with rfl | numPositive
  · have zero := NearestMagnitude.of_units 0
    simpa [roundMagnitude, units] using zero
  · obtain ⟨least, below, full⟩ := unitExponent_spec numPositive positive
    set unit := unitExponent num den with unitIs
    have powers : (2 : ℚ) ^ 149 = 2 ^ (-unit) * 2 ^ (unit + 149).toNat := by
      rw [← zpow_natCast 2 (unit + 149).toNat, ← zpow_add₀ two_ne_zero, Int.toNat_of_nonneg (by omega),
        neg_add_cancel_left]
      rfl
    obtain ⟨nearest, even⟩ := roundQuotient_toEven (num * 2 ^ (-unit).toNat)
      (Nat.mul_pos positive (Nat.two_pow_pos unit.toNat))
    rw [shifted_quotient] at nearest even
    rw [powers, ← mul_assoc, roundMagnitude, if_neg numPositive.ne']
    exact nearestMagnitude_scaled nearest even below full

/-- Of all finite numbers none is nearer, and the significand is even if another is as near. -/
structure NearestEven (q : ℚ) (y : Binary32) (r : ℚ) : Prop where
  value : y.value? = some r
  nearest : ∀ (z : Binary32) (s : ℚ), z.value? = some s → |q - r| ≤ |q - s|
  even : ∀ (z : Binary32) (s : ℚ), z.value? = some s → s ≠ r → |q - s| = |q - r| → Even y.significand

/-- A magnitude that is nearest makes a number that is nearest, as numbers of the other sign are no nearer
than zero. -/
theorem NearestMagnitude.nearestEven {t : ℚ} {y : Binary32} (nearest : NearestMagnitude t y.magnitude)
    (nonneg : 0 ≤ t) (finite : y.magnitude < infinityMagnitude) :
    NearestEven (fromUnits y.negative t) y (fromUnits y.negative (units y.magnitude)) := by
  have unit : (0 : ℚ) < 2 ^ (-149 : ℤ) := by positivity
  have zero : (units 0 : ℚ) = 0 := by simp [units]
  have origin : |t - units y.magnitude| ≤ t := by
    have near := nearest.nearest 0
    rwa [zero, sub_zero, abs_of_nonneg nonneg] at near
  have other {z : Binary32} (sign : z.negative ≠ y.negative) :
      |fromUnits y.negative t - fromUnits z.negative (units z.magnitude)| =
        (t + units z.magnitude) * 2 ^ (-149 : ℤ) := by
    rw [Bool.eq_not_iff.mpr sign, fromUnits_not, abs_fromUnits_sub, sub_neg_eq_add, abs_of_nonneg (by positivity)]
  refine ⟨value?_eq_some_iff.mpr ⟨finite, rfl⟩, ?_, ?_⟩
  · intro z s value
    obtain ⟨_, rfl⟩ := value?_eq_some_iff.mp value
    rw [abs_fromUnits_sub]
    by_cases sign : z.negative = y.negative
    · rw [sign, abs_fromUnits_sub]
      exact mul_le_mul_of_nonneg_right (nearest.nearest z.magnitude) unit.le
    · rw [other sign]
      exact mul_le_mul_of_nonneg_right (origin.trans (le_add_of_nonneg_right (Nat.cast_nonneg _))) unit.le
  · intro z s value different tied
    obtain ⟨_, rfl⟩ := value?_eq_some_iff.mp value
    rw [abs_fromUnits_sub] at tied
    rw [even_significand_iff]
    by_cases sign : z.negative = y.negative
    · rw [sign, abs_fromUnits_sub] at tied
      refine nearest.even z.magnitude (fun same => different ?_) (mul_right_cancel₀ unit.ne' tied)
      rw [sign, same]
    · -- What is as near from the other side of zero is zero itself.
      rw [other sign] at tied
      have distance := mul_right_cancel₀ unit.ne' tied
      have nothing : (units z.magnitude : ℚ) = 0 :=
        le_antisymm (by linarith) (Nat.cast_nonneg _)
      refine nearest.even 0 (fun same => different ?_) ?_
      · rw [nothing, ← same, zero, fromUnits, fromUnits, zero_mul, mul_zero, mul_zero]
      · rw [zero, sub_zero, abs_of_nonneg nonneg]
        linarith

namespace NearestEven
variable {q p r s : ℚ} {y z : Binary32}

theorem exact (nearest : NearestEven q y r) (value : z.value? = some q) : r = q := by
  have close := nearest.nearest z q value
  rw [sub_self, abs_zero, abs_nonpos_iff, sub_eq_zero] at close
  exact close.symm

theorem mono (first : NearestEven q y r) (second : NearestEven p z s) (lt : q < p) : r ≤ s := by
  by_contra crossed
  have low := first.nearest z s second.value
  have high := second.nearest y r first.value
  -- Squared, the distances put `q` above the middle of `s` and `r`, and `p` below it.
  rw [← sq_le_sq] at low high
  nlinarith

theorem not_magnitude_lt (first : NearestEven q y r) (second : NearestEven q z s) (sign : y.negative = z.negative) :
    ¬ y.magnitude < z.magnitude := by
  intro less
  have unit : (0 : ℚ) < 2 ^ (-149 : ℤ) := by positivity
  have tied : |q - r| = |q - s| :=
    le_antisymm (first.nearest z s second.value) (second.nearest y r first.value)
  obtain ⟨_, rfl⟩ := value?_eq_some_iff.mp first.value
  obtain ⟨finite, rfl⟩ := value?_eq_some_iff.mp second.value
  obtain ⟨t, rfl⟩ := exists_fromUnits y.negative q
  rw [← sign] at tied
  have different : fromUnits y.negative (units y.magnitude) ≠ fromUnits z.negative (units z.magnitude) := by
    rw [← sign]
    intro same
    exact (units_strictMono less).ne (Nat.cast_injective (fromUnits_injective _ same))
  have even := even_significand_iff y |>.mp (first.even z _ second.value different.symm (sign ▸ tied.symm))
  have otherEven := even_significand_iff z |>.mp (second.even y _ first.value different (sign ▸ tied))
  -- Both are even, so there is a number between them, and it is nearer than either.
  have gap : y.magnitude + 1 < z.magnitude := by
    rw [Nat.even_iff] at even otherEven
    omega
  have close := first.nearest (ofMagnitude y.negative (y.magnitude + 1)) _ (value?_ofMagnitude (gap.trans finite))
  rw [abs_fromUnits_sub, abs_fromUnits_sub] at tied close
  have nearer := nearer_between (mul_right_cancel₀ unit.ne' tied)
    (Nat.cast_lt.mpr (units_strictMono (Nat.lt_succ_self _))) (Nat.cast_lt.mpr (units_strictMono gap))
  exact absurd close (not_le.mpr (mul_lt_mul_of_pos_right nearer unit))

/-- There is only one such number of a sign. -/
theorem unique (first : NearestEven q y r) (second : NearestEven q z s) (sign : y.negative = z.negative) :
    y = z := by
  have low := first.not_magnitude_lt second sign
  have high := second.not_magnitude_lt first sign.symm
  have same : y.magnitude = z.magnitude := by omega
  rw [← y.ofMagnitude_magnitude, ← z.ofMagnitude_magnitude, sign, same]

end NearestEven

/-- Up to the largest magnitude, a quotient is rounded to the nearest one, whatever its sign. -/
theorem ofRatio_nearest (sign : Bool) (num : Nat) {den : Nat} (positive : 0 < den)
    (inside : (num / den * 2 ^ 149 : ℚ) ≤ units (infinityMagnitude - 1)) :
    (ofRatio sign num den).negative = sign ∧ (ofRatio sign num den).magnitude < infinityMagnitude ∧
      NearestMagnitude (num / den * 2 ^ 149) (ofRatio sign num den).magnitude := by
  have nearest := nearestMagnitude_roundMagnitude num positive
  have finite := nearest.lt_infinityMagnitude inside
  have bound := finite.trans infinityMagnitude_lt
  rw [ofRatio_eq, Nat.min_eq_left finite.le, negative_ofMagnitude bound, magnitude_ofMagnitude bound]
  exact ⟨rfl, finite, nearest⟩

/-- The first whole number that is halfway between two numbers. -/
example : (ofRatio false 16777217 1).bits = 0x4B800000 := by decide +kernel

theorem ofNumber_nearest (sign : Bool) {mantissa : Nat} {exponent : ℤ} {t : ℚ}
    (counted : (mantissa * 2 ^ exponent * 2 ^ 149 : ℚ) = t) (inside : t ≤ units (infinityMagnitude - 1)) :
    let y := ofNumber (.finite sign mantissa exponent)
    y.negative = sign ∧ y.magnitude < infinityMagnitude ∧ NearestMagnitude t y.magnitude := by
  rw [← counted, ← ratioOfScaled_eq] at inside ⊢
  exact ofRatio_nearest sign _ (ratioOfScaled_den_pos mantissa exponent) inside

end Binary32

end GpuBuffer
