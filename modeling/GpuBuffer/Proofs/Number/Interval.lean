import GpuBuffer.Number.Shortest
import GpuBuffer.Proofs.Number.Value
import Mathlib.Algebra.Order.Field.Power

namespace GpuBuffer

/-- A significand of the 64-bit format, with all the bits that it can have unless the unit is the least. -/
structure FullSignificand (significand : Nat) (unit : ℤ) : Prop where
  short : significand < 2 ^ 53
  least : -1074 ≤ unit
  full : unit = -1074 ∨ 2 ^ 52 ≤ significand

/-- No number of the format is nearer to a rational, and the significand is even if another is as near. -/
structure NearestEven64 (q : ℚ) (significand : Nat) (unit : ℤ) : Prop where
  nearest : ∀ y, IsBinary64 y → |q - significand * 2 ^ unit| ≤ |q - y|
  even : ∀ y, IsBinary64 y → y ≠ significand * 2 ^ unit → |q - significand * 2 ^ unit| = |q - y| → Even significand

/-- What lies between the ends is nearer to the middle than to anything that the ends are halfway to or nearer,
except at the ends. -/
theorem abs_sub_le_of_halfway {low middle high q y : ℚ} (below : low < middle) (above : middle < high)
    (lower : low ≤ q) (upper : q ≤ high) (outside : y ≤ 2 * low - middle ∨ 2 * high - middle ≤ y) :
    |q - middle| ≤ |q - y| ∧ (|q - middle| = |q - y| → q = low ∨ q = high) := by
  rcases outside with left | right
  · rw [abs_of_nonneg (by linarith : 0 ≤ q - y)]
    refine ⟨abs_le.mpr ⟨by linarith, by linarith⟩, fun tied => Or.inl ?_⟩
    rcases eq_or_eq_neg_of_abs_eq tied with same | mirrored <;> linarith
  · rw [abs_of_nonpos (by linarith : q - y ≤ 0)]
    refine ⟨abs_le.mpr ⟨by linarith, by linarith⟩, fun tied => Or.inr ?_⟩
    rcases eq_or_eq_neg_of_abs_eq tied with same | mirrored <;> linarith

section
variable {significand : Nat} {unit : ℤ} {y : ℚ}

/-- A number of the format is a multiple of the unit, or it lies below all significands that are full at it. -/
theorem multiple_or_small (form : FullSignificand significand unit) (number : IsBinary64 y) :
    (∃ n : ℤ, y = n * 2 ^ unit) ∨ (2 ^ 52 ≤ significand ∧ -1074 < unit ∧ y ≤ (2 ^ 52 - 1 / 2) * 2 ^ unit) := by
  obtain ⟨s, e, short, least, -, rfl⟩ := number
  rcases le_or_gt unit e with coarse | fine
  · left
    refine ⟨s * 2 ^ (e - unit).toNat, ?_⟩
    push_cast
    rw [mul_assoc, ← zpow_natCast, ← zpow_add₀ two_ne_zero, Int.toNat_of_nonneg (sub_nonneg.mpr coarse),
      sub_add_cancel]
  · right
    have above : -1074 < unit := by omega
    refine ⟨form.full.resolve_left above.ne', above, ?_⟩
    have bound : (s : ℚ) ≤ 2 ^ 53 - 1 := by
      have whole : s ≤ 2 ^ 53 - 1 := by
        have le := le_abs_self s
        omega
      exact_mod_cast whole
    calc (s : ℚ) * 2 ^ e ≤ (2 ^ 53 - 1) * 2 ^ e := mul_le_mul_of_nonneg_right bound (by positivity)
      _ ≤ (2 ^ 53 - 1) * 2 ^ (unit - 1) := by
        refine mul_le_mul_of_nonneg_left (zpow_le_zpow_right₀ one_le_two (by omega)) (by norm_num)
      _ = (2 ^ 52 - 1 / 2) * 2 ^ unit := by
        rw [zpow_sub_one₀ two_ne_zero]
        ring

end

namespace RoundingInterval
variable {interval : RoundingInterval} {p q r : ℚ}

def quarters (interval : RoundingInterval) (count : Nat) : ℚ :=
  count * 2 ^ interval.scale

/-- The number that the interval is of. -/
def middle (interval : RoundingInterval) : ℚ :=
  interval.quarters interval.center

def low (interval : RoundingInterval) : ℚ :=
  interval.quarters (interval.center - interval.down)

def high (interval : RoundingInterval) : ℚ :=
  interval.quarters (interval.center + interval.up)

def Contains (interval : RoundingInterval) (q : ℚ) : Prop :=
  if interval.closed then interval.low ≤ q ∧ q ≤ interval.high else interval.low < q ∧ q < interval.high

theorem Contains.low_le (inside : interval.Contains q) : interval.low ≤ q := by
  unfold Contains at inside
  split at inside
  · exact inside.1
  · exact inside.1.le

theorem Contains.le_high (inside : interval.Contains q) : q ≤ interval.high := by
  unfold Contains at inside
  split at inside
  · exact inside.2
  · exact inside.2.le

theorem Contains.between (lower : interval.Contains p) (upper : interval.Contains r) (above : p ≤ q)
    (below : q ≤ r) : interval.Contains q := by
  unfold Contains at *
  split_ifs at *
  · exact ⟨lower.1.trans above, below.trans upper.2⟩
  · exact ⟨lower.1.trans_le above, below.trans_lt upper.2⟩

theorem quarters_lt_quarters {m n : Nat} (lt : m < n) : interval.quarters m < interval.quarters n :=
  mul_lt_mul_of_pos_right (Nat.cast_lt.mpr lt) (by positivity)

/-- The interval goes on below and above its number, but neither down to zero nor up beyond the double. -/
structure Sound (interval : RoundingInterval) : Prop where
  down_pos : 0 < interval.down
  down_lt : interval.down < interval.center
  up_pos : 0 < interval.up
  up_le : interval.up ≤ interval.center

namespace Sound

variable (sound : interval.Sound)
include sound

theorem low_lt_middle : interval.low < interval.middle :=
  quarters_lt_quarters (Nat.sub_lt (Nat.zero_lt_of_lt sound.down_lt) sound.down_pos)

theorem middle_lt_high : interval.middle < interval.high :=
  quarters_lt_quarters (Nat.lt_add_of_pos_right sound.up_pos)

theorem high_le : interval.high ≤ 2 * interval.middle := by
  have twice : interval.center + interval.up ≤ 2 * interval.center := by
    have up := sound.up_le
    omega
  have cast : ((interval.center + interval.up : ℕ) : ℚ) ≤ 2 * interval.center := by exact_mod_cast twice
  have scaled := mul_le_mul_of_nonneg_right cast (by positivity : (0 : ℚ) ≤ 2 ^ interval.scale)
  rwa [mul_assoc] at scaled

theorem pos (inside : interval.Contains q) : 0 < q := by
  have low : 0 < interval.low :=
    mul_pos (Nat.cast_pos.mpr (Nat.sub_pos_of_lt sound.down_lt)) (by positivity)
  exact low.trans_le inside.low_le

theorem contains_middle : interval.Contains interval.middle := by
  unfold Contains
  split
  · exact ⟨sound.low_lt_middle.le, sound.middle_lt_high.le⟩
  · exact ⟨sound.low_lt_middle, sound.middle_lt_high⟩

end Sound

section
variable {significand : Nat} {unit : ℤ} {y : ℚ}

theorem sound_ofSignificand (unit : ℤ) (positive : 0 < significand) : (ofSignificand significand unit).Sound := by
  constructor
  · simp only [ofSignificand]
    split <;> decide
  · simp only [ofSignificand]
    split <;> omega
  · exact two_pos
  · simp only [ofSignificand]
    omega

theorem quarters_ofSignificand (count : Nat) :
    (ofSignificand significand unit).quarters count = count / 4 * 2 ^ unit := by
  simp only [quarters, ofSignificand]
  rw [zpow_sub₀ two_ne_zero]
  ring

theorem middle_ofSignificand : (ofSignificand significand unit).middle = significand * 2 ^ unit := by
  rw [middle, quarters_ofSignificand]
  simp only [ofSignificand]
  push_cast
  ring

theorem high_ofSignificand : (ofSignificand significand unit).high = (significand + 1 / 2) * 2 ^ unit := by
  rw [high, quarters_ofSignificand]
  simp only [ofSignificand]
  push_cast
  ring

theorem low_ofSignificand (positive : 0 < significand) : (ofSignificand significand unit).low =
    (significand - (if significand = 2 ^ 52 ∧ -1074 < unit then 1 / 4 else 1 / 2)) * 2 ^ unit := by
  rw [low, quarters_ofSignificand, Nat.cast_sub (sound_ofSignificand unit positive).down_lt.le]
  simp only [ofSignificand]
  push_cast
  split_ifs <;> ring

/-- The ends of the interval lie at most halfway to any other number of the format. -/
theorem ends_halfway (form : FullSignificand significand unit) (positive : 0 < significand) (number : IsBinary64 y)
    (other : y ≠ (ofSignificand significand unit).middle) :
    let interval := ofSignificand significand unit
    y ≤ 2 * interval.low - interval.middle ∨ 2 * interval.high - interval.middle ≤ y := by
  intro interval
  rw [low_ofSignificand positive, middle_ofSignificand, high_ofSignificand]
  rw [middle_ofSignificand] at other
  have scale : (0 : ℚ) < 2 ^ unit := by positivity
  rcases multiple_or_small form number with ⟨n, rfl⟩ | ⟨normal, above, small⟩
  · have different : n ≠ significand := by
      rintro rfl
      exact other rfl
    rcases Int.lt_or_gt_of_ne different with less | greater
    · left
      have step : (n : ℚ) + 1 ≤ significand := by exact_mod_cast less
      have scaled := mul_le_mul_of_nonneg_right step scale.le
      split_ifs <;> linarith
    · right
      have step : (significand : ℚ) + 1 ≤ n := by exact_mod_cast greater
      have scaled := mul_le_mul_of_nonneg_right step scale.le
      linarith
  · left
    split_ifs with power
    · rw [power.1]
      push_cast
      linarith
    · -- Above a power of two the neighbour below is a whole unit away.
      have next : 2 ^ 52 + 1 ≤ significand := by
        by_contra least
        exact power ⟨by omega, above⟩
      have step : (2 ^ 52 + 1 : ℚ) ≤ significand := by exact_mod_cast next
      have scaled := mul_le_mul_of_nonneg_right step scale.le
      linarith

theorem closed_iff : (ofSignificand significand unit).closed = true ↔ Even significand :=
  decide_eq_true_iff.trans Nat.even_iff.symm

theorem contains_iff_of_odd (odd : ¬ Even significand) : (ofSignificand significand unit).Contains q ↔
    (ofSignificand significand unit).low < q ∧ q < (ofSignificand significand unit).high := by
  rw [Contains, if_neg (mt closed_iff.mp odd)]

theorem nearestEven64_of_contains (form : FullSignificand significand unit) (positive : 0 < significand)
    (inside : (ofSignificand significand unit).Contains q) : NearestEven64 q significand unit := by
  have sound := sound_ofSignificand unit positive
  have closer {y : ℚ} (number : IsBinary64 y) (other : y ≠ (ofSignificand significand unit).middle) :=
    abs_sub_le_of_halfway sound.low_lt_middle sound.middle_lt_high inside.low_le inside.le_high
      (ends_halfway form positive number other)
  rw [middle_ofSignificand] at closer
  constructor
  · intro y number
    rcases eq_or_ne y (significand * 2 ^ unit) with rfl | other
    · exact le_rfl
    · exact (closer number other).1
  · intro y number other tied
    by_contra odd
    obtain ⟨strictLow, strictHigh⟩ := (contains_iff_of_odd odd).mp inside
    rcases (closer number other).2 tied with atLow | atHigh
    · exact strictLow.ne' atLow
    · exact strictHigh.ne atHigh

/-- The ends of the interval lie exactly halfway to the next numbers of the format. -/
theorem isBinary64_neighbours (form : FullSignificand significand unit) (positive : 0 < significand)
    (most : unit ≤ 970) :
    let interval := ofSignificand significand unit
    IsBinary64 (2 * interval.low - interval.middle) ∧ IsBinary64 (2 * interval.high - interval.middle) := by
  intro interval
  rw [low_ofSignificand positive, middle_ofSignificand, high_ofSignificand]
  have short := form.short
  have least := form.least
  constructor
  · split_ifs with power
    · refine ⟨2 ^ 53 - 1, unit - 1, by decide, by omega, by omega, ?_⟩
      rw [power.1, zpow_sub_one₀ two_ne_zero]
      push_cast
      ring
    · refine ⟨significand - 1, unit, abs_lt.mpr ⟨by omega, by omega⟩, by omega, by omega, ?_⟩
      push_cast
      ring
  · rcases Nat.lt_or_ge (significand + 1) (2 ^ 53) with below | carried
    · refine ⟨significand + 1, unit, abs_lt.mpr ⟨by omega, by omega⟩, by omega, by omega, ?_⟩
      push_cast
      ring
    · obtain rfl : significand = 2 ^ 53 - 1 := by omega
      refine ⟨2 ^ 52, unit + 1, by decide, by omega, by omega, ?_⟩
      rw [zpow_add_one₀ two_ne_zero]
      push_cast
      ring

theorem contains_of_nearestEven64 (form : FullSignificand significand unit) (positive : 0 < significand)
    (most : unit ≤ 970) (rounds : NearestEven64 q significand unit) : (ofSignificand significand unit).Contains q := by
  have sound := sound_ofSignificand unit positive
  have lower := sound.low_lt_middle
  have upper := sound.middle_lt_high
  obtain ⟨previous, next⟩ := isBinary64_neighbours form positive most
  obtain ⟨nearest, even⟩ := rounds
  rw [← middle_ofSignificand] at nearest even
  set interval := ofSignificand significand unit
  have low : interval.low ≤ q := by
    by_contra outside
    have near := nearest _ previous
    rw [abs_of_nonpos (by linarith), le_abs] at near
    rcases near with near | near <;> linarith
  have high : q ≤ interval.high := by
    by_contra outside
    have near := nearest _ next
    rw [abs_of_nonneg (by linarith), le_abs] at near
    rcases near with near | near <;> linarith
  by_cases parity : Even significand
  · rw [Contains, if_pos (closed_iff.mpr parity)]
    exact ⟨low, high⟩
  · rw [contains_iff_of_odd parity]
    refine ⟨lt_of_le_of_ne low fun same => ?_, lt_of_le_of_ne high fun same => ?_⟩
    · refine parity (even _ previous (by linarith) ?_)
      rw [← same, abs_sub_comm]
      congr 1
      ring
    · refine parity (even _ next (by linarith) ?_)
      rw [same, abs_sub_comm]
      congr 1
      ring

/-- The interval of a number holds exactly the rationals that round to it. -/
theorem contains_iff_nearestEven64 (form : FullSignificand significand unit) (positive : 0 < significand)
    (most : unit ≤ 970) : (ofSignificand significand unit).Contains q ↔ NearestEven64 q significand unit :=
  ⟨nearestEven64_of_contains form positive, contains_of_nearestEven64 form positive most⟩

end

/-- A mantissa is shifted up to a full significand. -/
theorem exists_fullSignificand {mantissa : Nat} {exponent : ℤ} (positive : 0 < mantissa) (short : mantissa < 2 ^ 53)
    (least : -1074 ≤ exponent) : ∃ significand unit, FullSignificand significand unit ∧ 0 < significand ∧
      unit ≤ exponent ∧ (significand * 2 ^ unit : ℚ) = mantissa * 2 ^ exponent ∧
      ofScaled mantissa exponent = ofSignificand significand unit := by
  have log := Nat.log2_lt (by omega) |>.mpr short
  set lift := min (52 - mantissa.log2) (exponent + 1074).toNat with lifted
  have small : mantissa * 2 ^ lift < 2 ^ 53 := by
    calc mantissa * 2 ^ lift < 2 ^ (mantissa.log2 + 1) * 2 ^ lift :=
          Nat.mul_lt_mul_of_pos_right Nat.lt_log2_self (Nat.two_pow_pos _)
      _ = 2 ^ (mantissa.log2 + 1 + lift) := (Nat.pow_add 2 _ _).symm
      _ ≤ 2 ^ 53 := Nat.pow_le_pow_right (by decide) (by omega)
  refine ⟨mantissa * 2 ^ lift, exponent - lift, ⟨small, by omega, ?_⟩, by positivity, by omega, ?_, rfl⟩
  · rcases Nat.lt_or_ge (exponent + 1074).toNat (52 - mantissa.log2) with subnormal | normal
    · left
      omega
    · right
      have bits : mantissa.log2 + lift = 52 := by omega
      calc 2 ^ 52 = 2 ^ mantissa.log2 * 2 ^ lift := by rw [← Nat.pow_add, bits]
        _ ≤ mantissa * 2 ^ lift := Nat.mul_le_mul_right _ (Nat.log2_self_le (by omega))
  · rw [zpow_sub₀ two_ne_zero, zpow_natCast]
    push_cast
    field_simp

end RoundingInterval

end GpuBuffer
