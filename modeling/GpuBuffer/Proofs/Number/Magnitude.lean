import GpuBuffer.Proofs.Number.Value
import Mathlib.Order.Monotone.Basic

namespace GpuBuffer.Binary32

/-- What a magnitude counts, in units of the least number above zero: up to `2 ^ 24` itself, and from
there on its significand, shifted by what its exponent is above the least. -/
def units (magnitude : Nat) : Nat :=
  (magnitude - (magnitude / 2 ^ 23 - 1) * 2 ^ 23) * 2 ^ (magnitude / 2 ^ 23 - 1)

/-- A significand that has become too long by one carries into the exponent. -/
theorem units_scaled {k s : Nat} (short : s ≤ 2 ^ 24) (full : k = 0 ∨ 2 ^ 23 ≤ s) :
    units (k * 2 ^ 23 + s) = s * 2 ^ k := by
  unfold units
  rcases Nat.lt_or_ge s (2 ^ 23) with low | normal
  · obtain rfl : k = 0 := by omega
    rw [Nat.zero_mul, Nat.zero_add, Nat.div_eq_of_lt low]
    simp
  · rcases Nat.lt_or_ge s (2 ^ 24) with below | carried
    · have shift : (k * 2 ^ 23 + s) / 2 ^ 23 - 1 = k := by omega
      rw [shift, Nat.add_sub_cancel_left]
    · obtain rfl : s = 2 ^ 24 := by omega
      have shift : (k * 2 ^ 23 + 2 ^ 24) / 2 ^ 23 - 1 = k + 1 := by omega
      have rest : k * 2 ^ 23 + 2 ^ 24 - (k + 1) * 2 ^ 23 = 2 ^ 23 := by omega
      rw [shift, rest, Nat.pow_succ' (n := k)]
      omega

theorem exists_scaled (m : Nat) : ∃ k s, m = k * 2 ^ 23 + s ∧ s < 2 ^ 24 ∧ (k = 0 ∨ 2 ^ 23 ≤ s) := by
  refine ⟨m / 2 ^ 23 - 1, m - (m / 2 ^ 23 - 1) * 2 ^ 23, ?_, ?_, ?_⟩
  · omega
  · omega
  · omega

/-- Magnitudes are ordered as what they count. -/
theorem units_strictMono : StrictMono units := by
  refine strictMono_nat_of_lt_succ fun m => ?_
  obtain ⟨k, s, rfl, below, full⟩ := exists_scaled m
  have next : units (k * 2 ^ 23 + (s + 1)) = (s + 1) * 2 ^ k := units_scaled below (by omega)
  rw [Nat.add_assoc, next, units_scaled below.le full]
  exact Nat.mul_lt_mul_of_pos_right (Nat.lt_succ_self s) (Nat.two_pow_pos k)

/-- From `2 ^ 23 * 2 ^ k` on, only multiples of `2 ^ k` are counted. -/
theorem dvd_units_or_lt (k m : Nat) : 2 ^ k ∣ units m ∨ units m < 2 ^ 23 * 2 ^ k := by
  obtain ⟨j, s, rfl, below, full⟩ := exists_scaled m
  rw [units_scaled below.le full]
  rcases Nat.lt_or_ge j k with coarse | fine
  · right
    have shorter : 2 * 2 ^ j ≤ 2 ^ k := by
      rw [← Nat.pow_succ']
      exact Nat.pow_le_pow_right (by decide) coarse
    have scaled := Nat.mul_lt_mul_of_pos_right below (Nat.two_pow_pos j)
    omega
  · exact Or.inl (Nat.dvd_mul_left_of_dvd (Nat.pow_dvd_pow 2 fine) s)

/-- All that has 24 significant bits is counted. -/
theorem exists_units_eq {k s : Nat} (short : s < 2 ^ 24) : ∃ m, units m = s * 2 ^ k := by
  induction k generalizing s with
  | zero => exact ⟨0 * 2 ^ 23 + s, units_scaled short.le (Or.inl rfl)⟩
  | succ k ih =>
    rcases Nat.lt_or_ge s (2 ^ 23) with low | full
    · obtain ⟨m, found⟩ := ih (by omega : 2 * s < 2 ^ 24)
      refine ⟨m, found.trans ?_⟩
      rw [Nat.pow_succ']
      ring
    · exact ⟨_, units_scaled short.le (Or.inr full)⟩

/-- The bits below the sign. -/
def magnitude (x : Binary32) : Nat :=
  x.bits.toNat % 2 ^ 31

/-- The fraction with the leading bit that all but subnormal numbers have. -/
def significand (x : Binary32) : Nat :=
  if x.biasedExponent = 0 then x.fraction else x.fraction + 2 ^ 23

theorem magnitude_eq (x : Binary32) : x.magnitude = x.biasedExponent * 2 ^ 23 + x.fraction := by
  unfold magnitude biasedExponent fraction
  omega

theorem even_significand_iff (x : Binary32) : Even x.significand ↔ Even x.magnitude := by
  rw [magnitude_eq, significand, Nat.even_iff, Nat.even_iff]
  split <;> omega

theorem ofMagnitude_magnitude (x : Binary32) : ofMagnitude x.negative x.magnitude = x := by
  obtain ⟨bits⟩ := x
  have below := bits.toNat_lt
  simp only [ofMagnitude, negative, magnitude, decide_eq_true_eq, mk.injEq]
  apply UInt32.toNat.inj
  rw [UInt32.toNat_ofNat', Nat.mod_eq_of_lt]
  · split <;> omega
  · split <;> omega

section
variable {sign : Bool} {m : Nat} (bound : m < 2 ^ 31)
include bound

theorem toNat_bits_ofMagnitude : (ofMagnitude sign m).bits.toNat = (if sign then 2 ^ 31 else 0) + m := by
  rw [ofMagnitude, UInt32.toNat_ofNat', Nat.mod_eq_of_lt]
  split <;> omega

theorem negative_ofMagnitude : (ofMagnitude sign m).negative = sign := by
  rw [negative, toNat_bits_ofMagnitude bound]
  cases sign with
  | false => simpa using bound
  | true => simp

theorem magnitude_ofMagnitude : (ofMagnitude sign m).magnitude = m := by
  rw [magnitude, toNat_bits_ofMagnitude bound]
  split <;> omega

end

theorem magnitude_lt_infinityMagnitude_iff {x : Binary32} :
    x.magnitude < infinityMagnitude ↔ x.biasedExponent ≠ 255 := by
  have fraction : x.fraction < 2 ^ 23 := Nat.mod_lt _ (by decide)
  have exponent : x.biasedExponent < 256 := Nat.mod_lt _ (by decide)
  rw [magnitude_eq, infinityMagnitude]
  omega

/-- A finite number is what its magnitude counts. -/
theorem exists_toNumber_eq_finite {x : Binary32} (finite : x.magnitude < infinityMagnitude) :
    ∃ (mantissa : Nat) (exponent : ℤ), x.toNumber = .finite x.negative mantissa exponent ∧
      (mantissa * 2 ^ exponent : ℚ) = units x.magnitude * 2 ^ (-149 : ℤ) := by
  have fraction : x.fraction < 2 ^ 23 := Nat.mod_lt _ (by decide)
  rw [toNumber_eq, if_neg (magnitude_lt_infinityMagnitude_iff.mp finite), magnitude_eq]
  by_cases subnormal : x.biasedExponent = 0
  · have counted : units (0 * 2 ^ 23 + x.fraction) = x.fraction * 2 ^ 0 := units_scaled (by omega) (Or.inl rfl)
    rw [if_pos subnormal, subnormal, counted, Nat.pow_zero, Nat.mul_one]
    exact ⟨_, _, rfl, rfl⟩
  · obtain ⟨e, shifted⟩ := Nat.exists_eq_succ_of_ne_zero subnormal
    have counted : units ((e + 1) * 2 ^ 23 + x.fraction) = (x.fraction + 2 ^ 23) * 2 ^ e := by
      rw [Nat.add_one_mul, Nat.add_assoc, Nat.add_comm (2 ^ 23)]
      exact units_scaled (by omega) (Or.inr (Nat.le_add_left _ _))
    have power : (2 : ℚ) ^ ((e + 1 : ℕ) - 150 : ℤ) = 2 ^ e * 2 ^ (-149 : ℤ) := by
      rw [← zpow_natCast, ← zpow_add₀ two_ne_zero]
      congr 1
      push_cast
      ring
    rw [if_neg subnormal, shifted, counted]
    refine ⟨_, _, rfl, ?_⟩
    rw [power, Nat.cast_mul, Nat.cast_pow, Nat.cast_ofNat, mul_assoc]

/-- So many units, with a sign. -/
def fromUnits (sign : Bool) (t : ℚ) : ℚ :=
  (if sign then -1 else 1) * (t * 2 ^ (-149 : ℤ))

theorem abs_fromUnits_sub (sign : Bool) (t u : ℚ) :
    |fromUnits sign t - fromUnits sign u| = |t - u| * 2 ^ (-149 : ℤ) := by
  have split : fromUnits sign t - fromUnits sign u = (if sign then -1 else 1) * ((t - u) * 2 ^ (-149 : ℤ)) := by
    unfold fromUnits
    ring
  rw [split, abs_mul, abs_mul, abs_of_pos (by positivity : (0 : ℚ) < 2 ^ (-149 : ℤ))]
  cases sign <;> simp

theorem fromUnits_not (sign : Bool) (t : ℚ) : fromUnits (!sign) t = fromUnits sign (-t) := by
  cases sign <;> simp [fromUnits]

/-- The value of a number, where it has one, is what its magnitude counts. -/
theorem value?_eq_some_iff {x : Binary32} {v : ℚ} :
    x.value? = some v ↔ x.magnitude < infinityMagnitude ∧ v = fromUnits x.negative (units x.magnitude) := by
  by_cases finite : x.magnitude < infinityMagnitude
  · obtain ⟨mantissa, exponent, number, counted⟩ := exists_toNumber_eq_finite finite
    rw [← value?_toNumber, number, Number.value?, counted, Option.some.injEq, fromUnits]
    exact ⟨fun same => ⟨finite, same.symm⟩, fun both => both.2.symm⟩
  · have special : x.biasedExponent = 255 := not_not.mp (mt magnitude_lt_infinityMagnitude_iff.mpr finite)
    rw [value?, if_pos special]
    constructor
    · intro missing
      cases missing
    · intro both
      exact absurd both.1 finite

theorem infinityMagnitude_lt : infinityMagnitude < 2 ^ 31 := by decide

theorem value?_ofMagnitude {sign : Bool} {m : Nat} (finite : m < infinityMagnitude) :
    (ofMagnitude sign m).value? = some (fromUnits sign (units m)) := by
  have bound := finite.trans infinityMagnitude_lt
  rw [value?_eq_some_iff, negative_ofMagnitude bound, magnitude_ofMagnitude bound]
  exact ⟨finite, rfl⟩

theorem fromUnits_injective (sign : Bool) : Function.Injective (fromUnits sign) := by
  intro t u same
  have distance := abs_fromUnits_sub sign t u
  rw [same, sub_self, abs_zero, zero_eq_mul, abs_eq_zero, sub_eq_zero] at distance
  exact distance.resolve_right (by positivity)

theorem unit_mul : (2 : ℚ) ^ (-149 : ℤ) * 2 ^ 149 = 1 := by norm_num

theorem fromUnits_mul (sign : Bool) (v : ℚ) : fromUnits sign (v * 2 ^ 149) = (if sign then -1 else 1) * v := by
  rw [fromUnits, mul_assoc v, mul_comm (2 ^ 149), unit_mul, mul_one]

theorem exists_fromUnits (sign : Bool) (q : ℚ) : ∃ t, q = fromUnits sign t := by
  refine ⟨(if sign then -1 else 1) * q * 2 ^ 149, ?_⟩
  rw [fromUnits_mul]
  cases sign <;> simp

theorem fromUnits_natAbs (n : ℤ) : fromUnits (decide (n < 0)) (n.natAbs * 2 ^ 149) = n := by
  rw [fromUnits_mul]
  rcases lt_or_ge n 0 with negative | nonnegative
  · have flipped : (n.natAbs : ℤ) = -n := Int.ofNat_natAbs_of_nonpos negative.le
    rw [decide_eq_true negative, if_pos rfl, ← Int.cast_natCast, flipped, Int.cast_neg, neg_one_mul, neg_neg]
  · have kept : (n.natAbs : ℤ) = n := Int.natAbs_of_nonneg nonnegative
    rw [decide_eq_false (not_lt.mpr nonnegative), if_neg Bool.false_ne_true, ← Int.cast_natCast, kept, one_mul]

/-- What the largest finite number counts is more than any integer of the host. -/
theorem units_largest : 2 ^ 32 * 2 ^ 149 ≤ units (infinityMagnitude - 1) := by
  have counted : units (253 * 2 ^ 23 + (2 ^ 24 - 1)) = (2 ^ 24 - 1) * 2 ^ 253 :=
    units_scaled (by decide) (Or.inr (by decide))
  have largest : infinityMagnitude - 1 = 253 * 2 ^ 23 + (2 ^ 24 - 1) := by decide
  rw [largest, counted]
  decide

theorem lt_infinityMagnitude_of_units {m : Nat} (inside : units m ≤ units (infinityMagnitude - 1)) :
    m < infinityMagnitude :=
  Nat.lt_of_le_pred (by decide) (units_strictMono.le_iff_le.mp inside)

/-- An integer of at most 24 significant bits is the value of a number. -/
theorem exists_value_eq {significand : ℤ} {shift : ℕ} (short : |significand| < 2 ^ 24)
    (small : (significand * 2 ^ shift).natAbs ≤ 2 ^ 32) :
    ∃ z : Binary32, z.value? = some ((significand * 2 ^ shift : ℤ) : ℚ) := by
  set n := significand * 2 ^ shift with product
  have length : n.natAbs = significand.natAbs * 2 ^ shift := by
    rw [product, Int.natAbs_mul, Int.natAbs_pow]
    rfl
  have shortNat : significand.natAbs < 2 ^ 24 := by
    rw [Int.abs_eq_natAbs] at short
    exact_mod_cast short
  obtain ⟨m, counted⟩ := exists_units_eq (k := shift + 149) shortNat
  have units_eq : units m = n.natAbs * 2 ^ 149 := by rw [counted, length, Nat.pow_add, Nat.mul_assoc]
  have inside : units m ≤ units (infinityMagnitude - 1) := by
    rw [units_eq]
    exact (Nat.mul_le_mul_right _ small).trans units_largest
  refine ⟨ofMagnitude (decide (n < 0)) m, ?_⟩
  rw [value?_ofMagnitude (lt_infinityMagnitude_of_units inside), units_eq, Nat.cast_mul, Nat.cast_pow,
    Nat.cast_ofNat, fromUnits_natAbs]

end GpuBuffer.Binary32
