import GpuBuffer.Proofs.Number.NearestEven

namespace GpuBuffer

namespace Binary32

theorem abs_fromUnits {sign : Bool} {t : ℚ} (nonneg : 0 ≤ t) : |fromUnits sign t| = t * 2 ^ (-149 : ℤ) := by
  have distance := abs_fromUnits_sub sign t 0
  rwa [sub_zero, abs_of_nonneg nonneg, fromUnits, fromUnits, zero_mul, mul_zero, sub_zero] at distance

/-- A quotient whose size is that of some number is not rounded, whatever its sign. -/
theorem value?_ofRatio {z : Binary32} {q : ℚ} (value : z.value? = some q) {num den : Nat} (positive : 0 < den)
    (size : |q| = num / den) (sign : Bool) :
    (ofRatio sign num den).value? = some ((if sign then -1 else 1) * (num / den) : ℚ) := by
  obtain ⟨finite, rfl⟩ := value?_eq_some_iff.mp value
  have counted : (num / den * 2 ^ 149 : ℚ) = units z.magnitude := by
    rw [← size, abs_fromUnits (Nat.cast_nonneg _), mul_assoc, unit_mul, mul_one]
  have inside : (units z.magnitude : ℚ) ≤ units (infinityMagnitude - 1) := by
    exact_mod_cast units_strictMono.monotone (Nat.le_sub_one_of_lt finite)
  obtain ⟨negative, small, nearest⟩ := ofRatio_nearest sign num positive (counted.trans_le inside)
  rw [counted] at nearest
  refine value?_eq_some_iff.mpr ⟨small, ?_⟩
  rw [negative, nearest.eq_of_units, ← counted, fromUnits_mul]

theorem value?_ofNat {z : Binary32} {n : Nat} (value : z.value? = some (n : ℚ)) : (ofNat n).value? = some (n : ℚ) := by
  have size : |(n : ℚ)| = n / (1 : Nat) := by rw [Nat.abs_cast, Nat.cast_one, div_one]
  have exact := value?_ofRatio value Nat.one_pos size false
  rwa [if_neg Bool.false_ne_true, one_mul, Nat.cast_one, div_one] at exact

theorem signed_div (s t : Bool) (a b : ℚ) :
    ((if s then -1 else 1) * a / ((if t then -1 else 1) * b) : ℚ) = (if s != t then -1 else 1) * (a / b) := by
  cases s <;> cases t <;> simp <;> ring

/-- Division rounds the exact quotient once. -/
theorem div_eq_ofRatio {x y : Binary32} {q r : ℚ} (dividend : x.value? = some q) (divisor : y.value? = some r)
    (nonzero : r ≠ 0) : ∃ (sign : Bool) (num den : Nat), 0 < den ∧
      q / r = (if sign then -1 else 1) * (num / den) ∧ x / y = ofRatio sign num den := by
  rw [← value?_toNumber] at dividend divisor
  obtain ⟨s, m, e, first, rfl⟩ := Number.exists_finite dividend
  obtain ⟨t, n, f, second, rfl⟩ := Number.exists_finite divisor
  have divides : n ≠ 0 := by
    rintro rfl
    exact nonzero (by rw [Nat.cast_zero, zero_mul, mul_zero])
  have ratio : ((m * 2 ^ (e - f).toNat : ℕ) : ℚ) / (n * 2 ^ (f - e).toNat : ℕ) = m * 2 ^ e / (n * 2 ^ f) := by
    have shifted := shifted_quotient m n (f - e)
    rw [neg_sub, zpow_sub₀ two_ne_zero] at shifted
    rw [shifted, div_mul_div_comm]
  refine ⟨s != t, m * 2 ^ (e - f).toNat, n * 2 ^ (f - e).toNat,
    Nat.mul_pos (Nat.pos_of_ne_zero divides) (Nat.two_pow_pos _), ?_, ?_⟩
  · rw [signed_div, ratio]
  · change quotient x.toNumber y.toNumber = _
    rw [first, second, quotient, if_neg divides]

theorem abs_signed_div (sign : Bool) (num den : Nat) :
    |((if sign then -1 else 1) * (num / den) : ℚ)| = num / den := by
  rw [abs_mul, abs_of_nonneg (by positivity : (0 : ℚ) ≤ num / den)]
  split <;> simp

/-- Division does not round where the exact quotient is a number. -/
theorem value?_div {x y z : Binary32} {q r : ℚ} (dividend : x.value? = some q) (divisor : y.value? = some r)
    (nonzero : r ≠ 0) (value : z.value? = some (q / r)) : (x / y).value? = some (q / r) := by
  obtain ⟨sign, num, den, positive, exact, rounded⟩ := div_eq_ofRatio dividend divisor nonzero
  rw [exact] at value ⊢
  rw [rounded]
  exact value?_ofRatio value positive (abs_signed_div sign num den) sign

/-- Elsewhere it gives a number that none is nearer to the exact quotient than, up to the largest. -/
theorem div_nearest {x y : Binary32} {q r : ℚ} (dividend : x.value? = some q) (divisor : y.value? = some r)
    (nonzero : r ≠ 0) (inside : |q / r| * 2 ^ 149 ≤ units (infinityMagnitude - 1)) :
    ∃ s, NearestEven (q / r) (x / y) s := by
  obtain ⟨sign, num, den, positive, exact, rounded⟩ := div_eq_ofRatio dividend divisor nonzero
  rw [exact, abs_signed_div] at inside
  obtain ⟨negative, finite, nearest⟩ := ofRatio_nearest sign num positive inside
  have nearestEven := nearest.nearestEven (by positivity) finite
  rw [negative, fromUnits_mul, ← exact, ← rounded] at nearestEven
  exact ⟨_, nearestEven⟩

example : ((1 : Binary32) / 10).bits = 0x3DCCCCCD := by decide +kernel

/-- Whole numbers of at most 24 bits, over a power of two that is not too large, are numbers. -/
theorem exists_value_eq_div {n places : Nat} (short : n < 2 ^ 24) (fine : places ≤ 149) :
    ∃ z : Binary32, z.value? = some (n / 2 ^ places : ℚ) := by
  obtain ⟨m, counted⟩ := exists_units_eq (k := 149 - places) short
  have inside : units m ≤ units (infinityMagnitude - 1) := by
    rw [counted]
    exact (Nat.mul_le_mul (show n ≤ 2 ^ 32 by omega)
      (Nat.pow_le_pow_right (by decide) (Nat.sub_le 149 places))).trans units_largest
  refine ⟨ofMagnitude false m, ?_⟩
  rw [value?_ofMagnitude (lt_infinityMagnitude_of_units inside), counted]
  have power : (2 : ℚ) ^ (149 - places) * 2 ^ places = 2 ^ 149 := by
    rw [← pow_add, Nat.sub_add_cancel fine]
  have whole : ((n * 2 ^ (149 - places) : ℕ) : ℚ) = n / 2 ^ places * 2 ^ 149 := by
    rw [← power]
    field_simp
    push_cast
    ring
  rw [whole, fromUnits_mul, if_neg Bool.false_ne_true, one_mul]

end Binary32

end GpuBuffer
