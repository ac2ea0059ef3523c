import GpuBuffer.Encoding
import GpuBuffer.Proofs.Number.Nearest
import GpuBuffer.Proofs.Number.Value
import Mathlib.RingTheory.Coprime.Lemmas

namespace GpuBuffer

namespace ExtendedRat

/-- The nearest point of the unit interval. -/
def clampUnit : ExtendedRat → ℚ
  | ⊥ => 0
  | ⊤ => 1
  | .ofRat q => max 0 (min 1 q)

theorem ofRat_clampUnit (v : ExtendedRat) : ofRat (clampUnit v) = max (ofRat 0) (min (ofRat 1) v) := by
  match v with
  | ⊥ => simp [clampUnit]
  | ⊤ => simp [clampUnit]
  | .ofRat q => simp [clampUnit, ofRat]

theorem clampUnit_mono {v w : ExtendedRat} (le : v ≤ w) : clampUnit v ≤ clampUnit w := by
  have inside : ofRat (clampUnit v) ≤ ofRat (clampUnit w) := by
    rw [ofRat_clampUnit, ofRat_clampUnit]
    exact max_le_max le_rfl (min_le_min le_rfl le)
  exact WithTop.coe_le_coe.mp (WithBot.coe_le_coe.mp inside)

theorem clampUnit_mem (v : ExtendedRat) : 0 ≤ clampUnit v ∧ clampUnit v ≤ 1 := by
  match v with
  | ⊥ => simp [clampUnit]
  | ⊤ => simp [clampUnit]
  | .ofRat q => simp [clampUnit]

variable {q : ℚ}

theorem clampUnit_of_nonpos (nonpositive : q ≤ 0) : clampUnit (ofRat q) = 0 :=
  max_eq_left ((min_le_right 1 q).trans nonpositive)

theorem clampUnit_of_one_le (one_le : 1 ≤ q) : clampUnit (ofRat q) = 1 := by
  simp [clampUnit, one_le]

theorem clampUnit_of_mem (nonnegative : 0 ≤ q) (le_one : q ≤ 1) : clampUnit (ofRat q) = q := by
  simp [clampUnit, nonnegative, le_one]

/-- What is clamped becomes an end of the interval or stays what it was. -/
theorem clampUnit_cases (v : ExtendedRat) : clampUnit v = 0 ∨ clampUnit v = 1 ∨ v = ofRat (clampUnit v) := by
  match v with
  | ⊥ => exact Or.inl rfl
  | ⊤ => exact Or.inr (Or.inl rfl)
  | .ofRat q =>
    rcases le_total q 0 with nonpositive | nonnegative
    · exact Or.inl (clampUnit_of_nonpos nonpositive)
    · rcases le_total 1 q with one_le | le_one
      · exact Or.inr (Or.inl (clampUnit_of_one_le one_le))
      · exact Or.inr (Or.inr (congrArg ofRat (clampUnit_of_mem nonnegative le_one).symm))

theorem eq_half_of_clampUnit {v : ExtendedRat} (half : clampUnit v = 1 / 2) : v = ofRat (1 / 2) := by
  rcases clampUnit_cases v with zero | one | same
  · norm_num [zero] at half
  · norm_num [one] at half
  · rwa [half] at same

end ExtendedRat

open ExtendedRat

/-- The byte for a number is its 255-fold, rounded, once the number is clamped. -/
theorem unormByte?_eq (x : Number) :
    unormByte? x = x.extended?.map fun v => (round (255 * clampUnit v)).toNat := by
  cases x with
  | nan => rfl
  | infinity negative => cases negative <;> simp [unormByte?, Number.extended?, clampUnit]
  | finite negative mantissa exponent =>
    have denominator := ratioOfScaled_den_pos mantissa exponent
    simp only [unormByte?, Number.extended?, Number.value?, Option.map_some, Option.some.injEq,
      ← ratioOfScaled_eq]
    generalize ratioOfScaled mantissa exponent = ratio at denominator ⊢
    obtain ⟨num, den⟩ := ratio
    have positive : (0 : ℚ) < den := Nat.cast_pos.mpr denominator
    have nonnegative : (0 : ℚ) ≤ num / den := div_nonneg (Nat.cast_nonneg num) positive.le
    cases negative with
    | true =>
      rw [if_pos rfl, if_pos rfl, clampUnit_of_nonpos (by linarith)]
      simp
    | false =>
      rw [if_neg Bool.false_ne_true, if_neg Bool.false_ne_true, one_mul]
      by_cases full : den ≤ num
      · have one_le : (1 : ℚ) ≤ num / den := (one_le_div positive).mpr (Nat.cast_le.mpr full)
        rw [if_pos full, clampUnit_of_one_le one_le]
        simp
      · have le_one : (num / den : ℚ) ≤ 1 := (div_le_one positive).mpr (Nat.cast_le.mpr (Nat.le_of_not_le full))
        have rounded := roundQuotient_upward (255 * num) denominator
        push_cast at rounded
        rw [if_neg full, clampUnit_of_mem nonnegative le_one, ← mul_div_assoc, ← rounded, Int.toNat_natCast]

/-- A clamped host number is as short as the number was. -/
theorem HostNumber.isScaled_clampUnit {host : HostNumber} {v : ExtendedRat} (extended : host.extended? = some v) :
    IsScaled 32 (-149) 104 (clampUnit v) := by
  rcases clampUnit_cases v with zero | one | same
  · exact ⟨0, 0, by norm_num [zero]⟩
  · exact ⟨1, 0, by norm_num [one]⟩
  · rw [same] at extended
    exact isScaled (extended?_eq_some_ofRat_iff.mp extended)

/-- A divisor that is odd is not found among the powers of two, so it is found in the whole number. -/
theorem dvd_of_eq_mul_scaled {divisor n significand exponent : ℤ} (odd : IsCoprime divisor 2)
    (product : (n : ℚ) = divisor * (significand * 2 ^ exponent)) : divisor ∣ n := by
  obtain ⟨d, rfl | rfl⟩ := exponent.eq_nat_or_neg
  · rw [zpow_natCast] at product
    have whole : n = divisor * (significand * 2 ^ d) := by exact_mod_cast product
    exact Dvd.intro _ whole.symm
  · have cleared : (n : ℚ) * 2 ^ d = divisor * significand := by
      rw [product, zpow_neg, zpow_natCast]
      field_simp
    have whole : n * 2 ^ d = divisor * significand := by exact_mod_cast cleared
    exact (odd.pow_right (n := d)).dvd_of_dvd_mul_right (Dvd.intro _ whole.symm)

/-- Only the half of a scaled number has ties: twice its 255-fold is odd then, and a multiple of 255. -/
theorem IsScaled.eq_half_of_tie {digits : Nat} {low high : ℤ} {u : ℚ} (scaled : IsScaled digits low high u)
    (nonnegative : 0 ≤ u) (le_one : u ≤ 1) {n : ℤ} (tie : (n : ℚ) = 255 * u + 1 / 2) : u = 1 / 2 := by
  have twice : ((2 * n - 1 : ℤ) : ℚ) = 510 * u := by
    push_cast
    rw [tie]
    ring
  have divides : (255 : ℤ) ∣ 2 * n - 1 := by
    obtain ⟨significand, exponent, _, _, _, value⟩ := scaled
    have odd : IsCoprime (255 : ℤ) 2 := ⟨1, -127, by norm_num⟩
    have product : ((2 * n - 1 : ℤ) : ℚ) = (255 : ℤ) * ((2 * significand : ℤ) * 2 ^ exponent) := by
      rw [twice, value]
      push_cast
      ring
    exact dvd_of_eq_mul_scaled odd product
  have above : (0 : ℚ) ≤ (2 * n - 1 : ℤ) := by rw [twice]; linarith
  have below : ((2 * n - 1 : ℤ) : ℚ) ≤ (510 : ℤ) := by rw [twice]; push_cast; linarith
  have middle : n = 128 := by
    have least := Int.cast_nonneg_iff.mp above
    have greatest := Int.cast_le.mp below
    omega
  rw [middle] at tie
  push_cast at tie
  linarith

/-- The byte is the 255-fold of the clamped number, rounded. Halfway between two bytes is the half alone,
which goes to the upper one. -/
structure RoundsToByte (v : ExtendedRat) (b : UInt8) : Prop where
  nearest : Nearest (255 * clampUnit v) b.toNat
  withinHalf : |255 * clampUnit v - b.toNat| ≤ 1 / 2
  tie_iff : (∃ n : ℤ, Nearest (255 * clampUnit v) n ∧ n ≠ b.toNat) ↔ v = ofRat (1 / 2)
  tie_upward : v = ofRat (1 / 2) → b = 128
  closest : ∀ (q : ℚ) (c : UInt8), v = ofRat q → 0 ≤ q → q ≤ 1 → |255 * q - c.toNat| < 1 / 2 → b = c

/-- The byte that a number is stored as. -/
def unormByte (v : ExtendedRat) : UInt8 :=
  UInt8.ofNat (round (255 * clampUnit v)).toNat

theorem toNat_unormByte (v : ExtendedRat) : ((unormByte v).toNat : ℤ) = round (255 * clampUnit v) := by
  obtain ⟨nonnegative, le_one⟩ := clampUnit_mem v
  have low := round_mono (show (0 : ℚ) ≤ 255 * clampUnit v by linarith)
  have high := round_mono (show 255 * clampUnit v ≤ (255 : ℤ) by push_cast; linarith)
  rw [round_zero] at low
  rw [round_intCast] at high
  rw [unormByte, UInt8.toNat_ofNat']
  omega

theorem unormByte_mono {v w : ExtendedRat} (le : v ≤ w) : unormByte v ≤ unormByte w := by
  have clamped := clampUnit_mono le
  have rounded := round_mono (show 255 * clampUnit v ≤ 255 * clampUnit w by linarith)
  rw [← toNat_unormByte, ← toNat_unormByte] at rounded
  exact UInt8.le_iff_toNat_le.mpr (Int.ofNat_le.mp rounded)

theorem roundsToByte_unormByte {digits : Nat} {low high : ℤ} {v : ExtendedRat}
    (scaled : IsScaled digits low high (clampUnit v)) : RoundsToByte v (unormByte v) := by
  have byte := toNat_unormByte v
  have nearest : Nearest (255 * clampUnit v) (unormByte v).toNat := byte ▸ round_le _
  have half : clampUnit (ofRat (1 / 2)) = 1 / 2 := clampUnit_of_mem (by norm_num) (by norm_num)
  have upward : round (255 * (1 / 2) : ℚ) = 128 := by norm_num [round_eq]
  refine ⟨nearest, nearest_iff.mp nearest, ?_, ?_, ?_⟩
  · rw [byte, exists_other_nearest_iff]
    constructor
    · intro tie
      obtain ⟨nonnegative, le_one⟩ := clampUnit_mem v
      exact eq_half_of_clampUnit (scaled.eq_half_of_tie nonnegative le_one tie)
    · rintro rfl
      rw [half, upward]
      norm_num
  · rintro rfl
    rw [half, upward] at byte
    exact UInt8.toNat_inj.mp (Int.ofNat_inj.mp byte)
  · rintro q c rfl nonnegative le_one close
    have same := eq_round_of_close close
    rw [← clampUnit_of_mem nonnegative le_one, ← byte] at same
    exact UInt8.toNat_inj.mp (Int.ofNat_inj.mp same.symm)

namespace Scalar

theorem encode_unorm8 (field : String) {host : HostNumber} {v : ExtendedRat} (extended : host.extended? = some v) :
    unorm8.encode field host.number = .ok [unormByte v] := by
  rw [← HostNumber.extended?_number] at extended
  simp only [encode, bits?, unormByte?_eq, extended, Option.map_some]
  rfl

/-- What is a number, an infinity included, is stored as the byte that it rounds to, and the bytes are in
the order of the numbers. What is not is refused. No clamped number or product has more digits than a
64-bit float, so nothing is rounded but the byte itself. -/
theorem encode_unorm_nearest (field : String) (host : HostNumber) :
    (∀ (values : Values) (i : Nat), values.hosts[i]? = some host → values.numbers[i]? = some host.number) ∧
      host.number.extended? = host.extended? ∧
      (host.extended? = none → unorm8.encode field host.number = .error (.valueRange field host.number)) ∧
      ∀ v, host.extended? = some v →
        IsBinary64 (clampUnit v) ∧ IsBinary64 (255 * clampUnit v) ∧
        ∃ b : UInt8, unorm8.encode field host.number = .ok [b] ∧ RoundsToByte v b ∧
          ∀ (other : HostNumber) (w : ExtendedRat), other.extended? = some w → v ≤ w →
            ∃ c : UInt8, unorm8.encode field other.number = .ok [c] ∧ b ≤ c := by
  refine ⟨fun _ _ => Values.getElem?_numbers, host.extended?_number, ?_, ?_⟩
  · intro undefined
    rw [← HostNumber.extended?_number] at undefined
    simp only [encode, bits?, unormByte?_eq, undefined, Option.map_none]
  · intro v extended
    have scaled := HostNumber.isScaled_clampUnit extended
    have product : IsScaled (8 + 32) (-149) 104 (255 * clampUnit v) := scaled.natMul (by decide : 255 < 2 ^ 8)
    refine ⟨scaled.isBinary64 (by decide) (by decide) (by decide),
      product.isBinary64 (by decide) (by decide) (by decide), unormByte v, encode_unorm8 field extended,
      roundsToByte_unormByte scaled, ?_⟩
    intro other w otherExtended le
    exact ⟨unormByte w, encode_unorm8 field otherExtended, unormByte_mono le⟩

/-- The half, the infinity below all numbers, and a pattern that is not a number. -/
theorem encode_unorm_nearest_at_half :
    let half : HostNumber := .float ⟨0x3F000000⟩
    let lowest : HostNumber := .float ⟨0xFF800000⟩
    let undefined : HostNumber := .float ⟨0x7F800001⟩
    half.extended? = some (ofRat (1 / 2)) ∧ unorm8.encode "f" half.number = .ok [128] ∧
      lowest.extended? = some ⊥ ∧ (∃ b, unorm8.encode "f" lowest.number = .ok [b] ∧ RoundsToByte ⊥ b ∧ b ≤ 128) ∧
      undefined.extended? = none ∧ unorm8.encode "f" undefined.number = .error (.valueRange "f" .nan) := by
  intro half lowest undefined
  have halfValue : half.extended? = some (ofRat (1 / 2)) := by
    have exponent : Binary32.biasedExponent ⟨0x3F000000⟩ = 126 := by decide
    have fraction : Binary32.fraction ⟨0x3F000000⟩ = 0 := by decide
    have positive : Binary32.negative ⟨0x3F000000⟩ = false := by decide
    norm_num [half, HostNumber.extended?, Binary32.extended?, Binary32.value?, exponent, fraction, positive]
  have lowestValue : lowest.extended? = some ⊥ := rfl
  have undefinedValue : undefined.extended? = none := rfl
  obtain ⟨_, _, _, ofHalf⟩ := encode_unorm_nearest "f" half
  obtain ⟨_, _, _, ofLowest⟩ := encode_unorm_nearest "f" lowest
  obtain ⟨_, _, refused, _⟩ := encode_unorm_nearest "f" undefined
  obtain ⟨_, _, middle, halfStored, halfRounds, _⟩ := ofHalf _ halfValue
  obtain ⟨_, _, least, lowestStored, lowestRounds, ordered⟩ := ofLowest _ lowestValue
  obtain ⟨above, aboveStored, le⟩ := ordered half _ halfValue bot_le
  have upward := halfRounds.tie_upward rfl
  cases halfStored.symm.trans aboveStored
  exact ⟨halfValue, upward ▸ halfStored, lowestValue, ⟨least, lowestStored, lowestRounds, upward ▸ le⟩,
    undefinedValue, refused undefinedValue⟩

end Scalar

end GpuBuffer
