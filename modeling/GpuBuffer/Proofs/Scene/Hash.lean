import GpuBuffer.Proofs.Number.Exact
import GpuBuffer.Scene.Hash
import Mathlib.Algebra.Group.Units.Equiv
import Mathlib.Data.Set.Card
import Mathlib.Data.UInt
import Mathlib.Order.Interval.Finset.Nat

namespace GpuBuffer.Scene

/-! ### Scrambling -/

/-- The bits that leave at the top and come in at the bottom go the rest of the way round. -/
theorem bits_rotateLeft_rotateLeft {w r : Nat} (x : BitVec w) (moves : 0 < r) (short : r < w) :
    (x.rotateLeft r).rotateLeft (w - r) = x := by
  have rest : w - r < w := by omega
  apply BitVec.eq_of_getLsbD_eq
  intro i inside
  simp only [BitVec.getLsbD_rotateLeft, Nat.mod_eq_of_lt short, Nat.mod_eq_of_lt rest]
  by_cases low : i < w - r
  · have above : ¬ w - (w - r) + i < r := by omega
    have within : w - (w - r) + i < w := by omega
    have back : w - (w - r) + i - r = i := by omega
    simp [low, above, within, back]
  · have below : i - (w - r) < r := by omega
    have back : w - r + (i - (w - r)) = i := by omega
    simp [low, inside, below, back]

section
variable {amount : UInt32} (moves : 0 < amount.toNat) (short : amount.toNat < 32)
include short

theorem toNat_complement : (32 - amount).toNat = 32 - amount.toNat :=
  UInt32.toNat_sub_of_le 32 amount (UInt32.le_iff_toNat_le.mpr short.le)

include moves

theorem toBitVec_rotateLeft (x : UInt32) :
    (rotateLeft x amount).toBitVec = x.toBitVec.rotateLeft amount.toNat := by
  have left : (amount.toBitVec % 32).toNat = amount.toNat := Nat.mod_eq_of_lt short
  have right : ((32 - amount).toBitVec % 32).toNat = 32 - amount.toNat := by
    change (32 - amount).toNat % 32 = _
    rw [toNat_complement short]
    omega
  rw [rotateLeft, UInt32.toBitVec_or, UInt32.toBitVec_shiftLeft, UInt32.toBitVec_shiftRight, BitVec.shiftLeft_eq',
    BitVec.ushiftRight_eq', left, right, BitVec.rotateLeft_def, Nat.mod_eq_of_lt short]

theorem rotateLeft_rotateLeft (x : UInt32) : rotateLeft (rotateLeft x amount) (32 - amount) = x := by
  have complement := toNat_complement short
  have again : 0 < (32 - amount).toNat ∧ (32 - amount).toNat < 32 := by omega
  rw [← UInt32.toBitVec_inj, toBitVec_rotateLeft again.1 again.2, toBitVec_rotateLeft moves short, complement,
    bits_rotateLeft_rotateLeft _ moves short]

theorem rotateLeft_bijective : Function.Bijective (rotateLeft · amount) := by
  have complement := toNat_complement short
  refine Function.bijective_iff_has_inverse.mpr
    ⟨(rotateLeft · (32 - amount)), rotateLeft_rotateLeft moves short, fun x => ?_⟩
  have back := rotateLeft_rotateLeft (by omega : 0 < (32 - amount).toNat) (by omega) x
  rwa [sub_sub_self] at back

end

theorem mul_bijective {factor : UInt32} (inverse : UInt32) (inverts : factor * inverse = 1) :
    Function.Bijective (· * factor) := by
  obtain ⟨unit, rfl⟩ := IsUnit.of_mul_eq_one inverse inverts
  exact unit.mulRight_bijective

theorem scramble_bijective : Function.Bijective scramble := by
  have first : Function.Bijective (· * (0x9E3779B9 : UInt32)) := mul_bijective 0x144CBC89 (by decide)
  have turn : Function.Bijective (rotateLeft · 13) := rotateLeft_bijective (by decide) (by decide)
  have second : Function.Bijective (· * (0x85EBCA6B : UInt32)) := mul_bijective 0xA5CB9243 (by decide)
  exact second.comp (turn.comp first)

/-! ### The upper 24 bits -/

/-- So many words lie between two bounds. -/
theorem ncard_words_between (low : Nat) {high : Nat} (bounded : high ≤ 2 ^ 32) :
    {x : UInt32 | low ≤ x.toNat ∧ x.toNat < high}.ncard = high - low := by
  have injective : Function.Injective UInt32.toNat := fun _ _ => UInt32.toNat_inj.mp
  have image : UInt32.toNat '' {x : UInt32 | low ≤ x.toNat ∧ x.toNat < high} = Finset.Ico low high := by
    ext n
    simp only [Set.mem_image, Finset.coe_Ico, Set.mem_Ico]
    constructor
    · rintro ⟨x, bounds, rfl⟩
      exact bounds
    · intro bounds
      have word : (UInt32.ofNat n).toNat = n := UInt32.toNat_ofNat_of_lt' (bounds.2.trans_le bounded)
      refine ⟨UInt32.ofNat n, ?_, word⟩
      rw [Set.mem_ofPred_eq, word]
      exact bounds
  rw [← Set.ncard_image_of_injective _ injective, image, Set.ncard_coe_finset, Nat.card_Ico]

theorem toNat_upper (x : UInt32) : (x >>> 8).toNat = x.toNat / 256 :=
  (UInt32.toNat_shiftRight x 8).trans (Nat.shiftRight_eq_div_pow x.toNat 8)

theorem toNat_upper_lt (x : UInt32) : (x >>> 8).toNat < 2 ^ 24 := by
  have below := x.toNat_lt
  rw [toNat_upper]
  omega

theorem ncard_upper_eq {k : Nat} (short : k < 2 ^ 24) : {x : UInt32 | (x >>> 8).toNat = k}.ncard = 256 := by
  have between : {x : UInt32 | (x >>> 8).toNat = k} = {x : UInt32 | k * 256 ≤ x.toNat ∧ x.toNat < k * 256 + 256} := by
    ext x
    simp only [Set.mem_ofPred_eq, toNat_upper]
    omega
  rw [between, ncard_words_between _ (by omega), Nat.add_sub_cancel_left]

/-! ### The hash -/

theorem value?_whole {n : Nat} (short : n < 2 ^ 24) : (Binary32.ofNat n).value? = some (n : ℚ) := by
  obtain ⟨z, value⟩ := Binary32.exists_value_eq_div short (Nat.zero_le 149)
  rw [pow_zero, div_one] at value
  exact Binary32.value?_ofNat value

theorem value?_denominator : (16777216 : Binary32).value? = some (2 ^ 24 : ℚ) := by
  have small : ((1 : ℤ) * 2 ^ 24).natAbs ≤ 2 ^ 32 := by decide
  obtain ⟨z, value⟩ := Binary32.exists_value_eq (by decide : |(1 : ℤ)| < 2 ^ 24) small
  have exact : (Binary32.ofNat (2 ^ 24)).value? = some ((2 ^ 24 : ℕ) : ℚ) :=
    Binary32.value?_ofNat (value.trans (by norm_num))
  exact exact.trans (by norm_num)

theorem value?_unitHash (seed : UInt32) :
    (unitHash seed).value? = some ((scramble seed >>> 8).toNat / 2 ^ 24 : ℚ) := by
  have short := toNat_upper_lt (scramble seed)
  obtain ⟨z, value⟩ := Binary32.exists_value_eq_div short (by decide : 24 ≤ 149)
  exact Binary32.value?_div (value?_whole short) value?_denominator (by norm_num) value

theorem value?_unitHash_eq_iff {seed : UInt32} {k : Nat} :
    (unitHash seed).value? = some (k / 2 ^ 24 : ℚ) ↔ (scramble seed >>> 8).toNat = k := by
  rw [value?_unitHash, Option.some.injEq, div_left_inj' (by norm_num), Nat.cast_inj]

/-- The hash of a seed is a whole number of 24 bits over `2 ^ 24`, and nothing is rounded on the way to it:
the number, the power and their quotient are the values of the floats that stand for them. So it lies in
`[0, 1)`. No two seeds are scrambled alike, and of all seeds just 256 have a given hash. -/
theorem unitHash_balanced :
    (∀ seed : UInt32, ∃ k : ℕ, k < 2 ^ 24 ∧ (scramble seed >>> 8).toNat = k ∧
      (Binary32.ofNat k).value? = some (k : ℚ) ∧ (16777216 : Binary32).value? = some (2 ^ 24 : ℚ) ∧
      (unitHash seed).value? = some (k / 2 ^ 24 : ℚ) ∧ 0 ≤ (k / 2 ^ 24 : ℚ) ∧ (k / 2 ^ 24 : ℚ) < 1) ∧
      Function.Bijective scramble ∧
      ∀ k : ℕ, k < 2 ^ 24 → {seed : UInt32 | (unitHash seed).value? = some (k / 2 ^ 24 : ℚ)}.ncard = 256 := by
  refine ⟨fun seed => ?_, scramble_bijective, fun k short => ?_⟩
  · have short := toNat_upper_lt (scramble seed)
    have cast : ((scramble seed >>> 8).toNat : ℚ) < 2 ^ 24 := by exact_mod_cast short
    refine ⟨_, short, rfl, value?_whole short, value?_denominator, value?_unitHash seed, by positivity, ?_⟩
    rwa [div_lt_one (by norm_num)]
  · have preimage : {seed : UInt32 | (unitHash seed).value? = some (k / 2 ^ 24 : ℚ)} =
        Set.preimage scramble {x | (x >>> 8).toNat = k} := Set.ext fun _ => value?_unitHash_eq_iff
    have everywhere : {x : UInt32 | (x >>> 8).toNat = k} ⊆ Set.range scramble := by
      rw [scramble_bijective.surjective.range_eq]
      exact Set.subset_univ _
    rw [preimage, Set.ncard_preimage_of_injective_subset_range scramble_bijective.injective everywhere,
      ncard_upper_eq short]

end GpuBuffer.Scene
