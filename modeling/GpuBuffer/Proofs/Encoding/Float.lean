import GpuBuffer.Proofs.Encoding
import GpuBuffer.Proofs.Image.Bytes
import GpuBuffer.Proofs.Number.NearestEven

namespace GpuBuffer

namespace Binary32

/-- The patterns that are no number: the largest exponent over a fraction. -/
def IsNaN (x : Binary32) : Prop :=
  x.biasedExponent = 255 ∧ x.fraction ≠ 0

/-- What is a number is read as its value and rounded back to itself. -/
theorem ofNumber_toNumber {x : Binary32} (number : ¬ x.IsNaN) : ofNumber x.toNumber = x := by
  by_cases finite : x.magnitude < infinityMagnitude
  · obtain ⟨mantissa, exponent, same, counted⟩ := exists_toNumber_eq_finite finite
    have inside : units x.magnitude ≤ units (infinityMagnitude - 1) :=
      units_strictMono.monotone (Nat.le_sub_one_of_lt finite)
    have unscaled : (mantissa * 2 ^ exponent * 2 ^ 149 : ℚ) = units x.magnitude := by
      rw [counted, mul_assoc, unit_mul, mul_one]
    obtain ⟨sign, _, nearest⟩ := ofNumber_nearest x.negative unscaled (by exact_mod_cast inside)
    rw [same, ← ofMagnitude_magnitude (ofNumber _), sign, nearest.eq_of_units, ofMagnitude_magnitude]
  · have special : x.biasedExponent = 255 := not_not.mp (mt magnitude_lt_infinityMagnitude_iff.mpr finite)
    have infinite : x.fraction = 0 := by_contra fun payload => number ⟨special, payload⟩
    have top : infinityMagnitude = x.magnitude := by
      rw [magnitude_eq, special, infinite, infinityMagnitude, Nat.add_zero]
    rw [toNumber_eq, if_pos special, if_pos infinite, ofNumber, top, ofMagnitude_magnitude]

theorem ofNumber_ofInt {n : ℤ} (small : n.natAbs ≤ 2 ^ 32) :
    (ofNumber (.ofInt n)).negative = decide (n < 0) ∧ ∃ r, NearestEven n (ofNumber (.ofInt n)) r := by
  have scaled : (n.natAbs * 2 ^ (0 : ℤ) * 2 ^ 149 : ℚ) = n.natAbs * 2 ^ 149 := by rw [zpow_zero, mul_one]
  have inside : (n.natAbs * 2 ^ 149 : ℚ) ≤ units (infinityMagnitude - 1) := by
    exact_mod_cast (Nat.mul_le_mul_right _ small).trans units_largest
  obtain ⟨sign, finite, nearest⟩ := ofNumber_nearest (decide (n < 0)) scaled inside
  have rounded := nearest.nearestEven (by positivity) finite
  rw [sign, fromUnits_natAbs] at rounded
  exact ⟨sign, _, rounded⟩

end Binary32

namespace HostNumber

/-- What a number of one of the integer types is. -/
def integer? : HostNumber → Option ℤ
  | .float _ => none
  | .signed x => some x.toInt
  | .unsigned x => some x.toNat

/-- The float that a number is rounded to. -/
def toBinary32 (host : HostNumber) : Binary32 :=
  .ofNumber host.number

theorem number_of_integer? {host : HostNumber} {n : ℤ} (integer : host.integer? = some n) :
    host.number = .ofInt n ∧ n.natAbs ≤ 2 ^ 32 := by
  cases host with
  | float x => cases integer
  | signed x =>
    have above := x.le_toInt
    have below := x.toInt_lt
    cases integer
    exact ⟨rfl, by omega⟩
  | unsigned x =>
    have below := x.toNat_lt
    cases integer
    exact ⟨rfl, by omega⟩

theorem nearestEven_toBinary32 {host : HostNumber} {n : ℤ} (integer : host.integer? = some n) :
    host.toBinary32.negative = decide (n < 0) ∧ ∃ r, Binary32.NearestEven n host.toBinary32 r := by
  obtain ⟨number, small⟩ := number_of_integer? integer
  rw [toBinary32, number]
  exact Binary32.ofNumber_ofInt small

theorem toBinary32_mono {host other : HostNumber} {n m : ℤ} (integer : host.integer? = some n)
    (otherInteger : other.integer? = some m) (le : n ≤ m) {r s : ℚ} (value : host.toBinary32.value? = some r)
    (otherValue : other.toBinary32.value? = some s) : r ≤ s := by
  obtain ⟨_, _, nearest⟩ := nearestEven_toBinary32 integer
  obtain ⟨_, _, otherNearest⟩ := nearestEven_toBinary32 otherInteger
  rcases le.eq_or_lt with rfl | lt
  · rw [toBinary32, (number_of_integer? integer).1] at value
    rw [toBinary32, (number_of_integer? otherInteger).1] at otherValue
    exact (Option.some.inj (value.symm.trans otherValue)).le
  · cases value.symm.trans nearest.value
    cases otherValue.symm.trans otherNearest.value
    exact nearest.mono otherNearest (by exact_mod_cast lt)

end HostNumber

namespace Scalar

theorem encode_float32 (field : String) (host : HostNumber) :
    float32.encode field host.number = .ok (littleEndian 4 host.toBinary32.bits.toNat) := rfl

/-- Every number has a float, and its bits are what is stored. That of a float, if it is no NaN, is itself.
That of an integer has the integer's sign and is the nearest, the one with the even significand if two are
nearest, and no other of its sign is. So an integer of at most 24 significant bits is stored exactly, and
integers are stored in their order. Nothing is lost in a 64-bit float on the way. -/
theorem encode_float_nearest (field : String) (host : HostNumber) :
    let y := host.toBinary32
    (∀ (values : Values) (i : Nat), values.hosts[i]? = some host → values.numbers[i]? = some host.number) ∧
      host.number.extended? = host.extended? ∧ (∀ v, host.value? = some v → IsBinary64 v) ∧
      (∃ bytes, float32.encode field host.number = .ok bytes ∧ bytes.length = 4 ∧
        fromLittleEndian bytes = y.bits.toNat) ∧
      (∀ x : Binary32, host = .float x → ¬ x.IsNaN → y = x) ∧
      ∀ n : ℤ, host.integer? = some n →
        y.negative = decide (n < 0) ∧
          (∃ r, Binary32.NearestEven n y r) ∧
          (∀ (z : Binary32) (s : ℚ), Binary32.NearestEven n z s → z.negative = y.negative → z = y) ∧
          (∀ (significand : ℤ) (shift : ℕ), |significand| < 2 ^ 24 → n = significand * 2 ^ shift →
            y.value? = some (n : ℚ)) ∧
          ∀ (other : HostNumber) (m : ℤ), other.integer? = some m → n ≤ m →
            ∃ r s, y.value? = some r ∧ other.toBinary32.value? = some s ∧ r ≤ s := by
  intro y
  refine ⟨fun _ _ => Values.getElem?_numbers, host.extended?_number, fun _ => host.isBinary64, ?_, ?_, ?_⟩
  · refine ⟨_, encode_float32 field host, length_littleEndian _ _, ?_⟩
    rw [fromLittleEndian_littleEndian]
    exact Nat.mod_eq_of_lt y.bits.toNat_lt
  · rintro x rfl number
    exact Binary32.ofNumber_toNumber number
  · intro n integer
    obtain ⟨sign, r, nearest⟩ := HostNumber.nearestEven_toBinary32 integer
    refine ⟨sign, ⟨r, nearest⟩, fun z s other same => other.unique nearest same, ?_, ?_⟩
    · rintro significand shift short rfl
      obtain ⟨_, small⟩ := HostNumber.number_of_integer? integer
      obtain ⟨z, value⟩ := Binary32.exists_value_eq short small
      rw [← nearest.exact value]
      exact nearest.value
    · intro other m otherInteger le
      obtain ⟨_, s, otherNearest⟩ := HostNumber.nearestEven_toBinary32 otherInteger
      exact ⟨r, s, nearest.value, otherNearest.value,
        HostNumber.toBinary32_mono integer otherInteger le nearest.value otherNearest.value⟩

/-- The greatest integer, which carries into the exponent, an integer halfway between two floats, and the
negative zero. -/
theorem encode_float_nearest_at_carry :
    let greatest : HostNumber := .unsigned 4294967295
    let halfway : HostNumber := .signed (-16777217)
    let zero : HostNumber := .float ⟨0x80000000⟩
    float32.encode "f" greatest.number = .ok [0, 0, 128, 79] ∧
      (∃ r, Binary32.NearestEven (4294967295 : ℤ) ⟨0x4F800000⟩ r) ∧
      float32.encode "f" halfway.number = .ok [0, 0, 128, 203] ∧
      (∃ r, Binary32.NearestEven (-16777217 : ℤ) ⟨0xCB800000⟩ r) ∧
      zero.toBinary32 = ⟨0x80000000⟩ := by
  intro greatest halfway zero
  have carried : greatest.toBinary32 = ⟨0x4F800000⟩ := by decide +kernel
  have down : halfway.toBinary32 = ⟨0xCB800000⟩ := by decide +kernel
  obtain ⟨_, _, _, _, _, ofGreatest⟩ := encode_float_nearest "f" greatest
  obtain ⟨_, _, _, _, _, ofHalfway⟩ := encode_float_nearest "f" halfway
  obtain ⟨_, _, _, _, ofZero, _⟩ := encode_float_nearest "f" zero
  obtain ⟨_, nearest, _⟩ := ofGreatest 4294967295 rfl
  obtain ⟨_, otherNearest, _⟩ := ofHalfway (-16777217) (by decide)
  rw [carried] at nearest
  rw [down] at otherNearest
  have number : ¬ Binary32.IsNaN ⟨0x80000000⟩ := fun special => absurd special.1 (by decide)
  exact ⟨by decide +kernel, nearest, by decide +kernel, otherNearest, ofZero _ rfl number⟩

end Scalar

end GpuBuffer
