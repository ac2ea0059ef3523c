import GpuBuffer.Number.Rounding
import Mathlib.Algebra.Order.Round
import Mathlib.Algebra.Order.Field.Power
import Mathlib.Algebra.Order.Field.Rat
import Mathlib.Data.Rat.Floor
import Mathlib.Tactic.Linarith
import Mathlib.Tactic.NormNum
import Mathlib.Tactic.Positivity
import Mathlib.Tactic.Ring

namespace GpuBuffer

/-- A whole number that no other is nearer than. -/
def Nearest (q : ℚ) (n : ℤ) : Prop :=
  ∀ m : ℤ, |q - n| ≤ |q - m|

theorem nearest_iff {q : ℚ} {n : ℤ} : Nearest q n ↔ |q - n| ≤ 1 / 2 := by
  constructor
  · intro nearest
    exact (nearest (round q)).trans (abs_sub_round q)
  · intro close m
    rcases eq_or_ne n m with rfl | different
    · exact le_rfl
    · have apart : 1 ≤ |n - m| := Int.one_le_abs (sub_ne_zero.mpr different)
      have spread : (1 : ℚ) ≤ |(n : ℚ) - m| := by exact_mod_cast apart
      have path := abs_sub_le (n : ℚ) q m
      rw [abs_sub_comm (n : ℚ) q] at path
      linarith

theorem eq_round_of_close {q : ℚ} {n : ℤ} (close : |q - n| < 1 / 2) : n = round q := by
  obtain ⟨above, below⟩ := abs_lt.mp close
  exact (round_eq_iff.mpr ⟨by linarith, by linarith⟩).symm

/-- Two whole numbers are nearest only if the quotient lies halfway, and then it is rounded up. -/
theorem exists_other_nearest_iff {q : ℚ} : (∃ n, Nearest q n ∧ n ≠ round q) ↔ (round q : ℚ) = q + 1 / 2 := by
  constructor
  · intro other
    obtain ⟨n, nearest, different⟩ := other
    obtain ⟨above, below⟩ := abs_le.mp (nearest_iff.mp nearest)
    have halfway : q = n + 1 / 2 := by
      by_contra notHalfway
      have strict : q < n + 1 / 2 := lt_of_le_of_ne (by linarith) notHalfway
      exact different (round_eq_iff.mpr ⟨by linarith, strict⟩).symm
    have up : round q = n + 1 := by
      rw [round_eq_iff]
      push_cast
      exact ⟨by linarith, by linarith⟩
    rw [up, halfway]
    push_cast
    ring
  · intro halfway
    refine ⟨round q - 1, nearest_iff.mpr ?_, by omega⟩
    push_cast
    rw [halfway, abs_le]
    exact ⟨by linarith, by linarith⟩

theorem round_mono {q r : ℚ} (le : q ≤ r) : round q ≤ round r := by
  rw [round_eq, round_eq]
  exact Int.floor_mono (by linarith)

/-- A quotient with its ties upward is rounded as the rational is. -/
theorem roundQuotient_upward (num : Nat) {den : Nat} (positive : 0 < den) :
    (roundQuotient .upward num den : ℤ) = round (num / den : ℚ) := by
  have denPositive : (0 : ℚ) < den := Nat.cast_pos.mpr positive
  have lower := (roundQuotient_within_half .upward num positive).1
  have upper : 2 * num < 2 * (roundQuotient .upward num den * den) + den := by
    have split := Nat.div_add_mod num den
    have next : (num / den + 1) * den = den * (num / den) + den := by
      rw [Nat.add_mul, Nat.one_mul, Nat.mul_comm]
    have here : num / den * den = den * (num / den) := Nat.mul_comm _ _
    have below := Nat.mod_lt num positive
    unfold roundQuotient
    dsimp only
    split_ifs <;> omega
  refine (round_eq_iff.mpr ⟨?_, ?_⟩).symm
  · rw [le_div_iff₀ denPositive]
    have cast : (2 * (roundQuotient .upward num den * den) : ℚ) ≤ 2 * num + den := by exact_mod_cast lower
    push_cast
    linarith
  · rw [div_lt_iff₀ denPositive]
    have cast : (2 * num : ℚ) < 2 * (roundQuotient .upward num den * den) + den := by exact_mod_cast upper
    push_cast
    linarith

/-- Shifting a quotient by a power of two, whichever of the two parts it is that takes the power. -/
theorem shifted_quotient (num den : Nat) (e : ℤ) :
    ((num * 2 ^ (-e).toNat : ℕ) : ℚ) / (den * 2 ^ e.toNat : ℕ) = num / den * 2 ^ (-e) := by
  obtain ⟨n, rfl | rfl⟩ := e.eq_nat_or_neg
  · simp [div_eq_mul_inv]
    ring
  · simp [div_eq_mul_inv]
    ring

/-- The power of two just below a positive quotient, found from the lengths of its parts. -/
theorem floorLog2_spec {num den : Nat} (numPositive : 0 < num) (denPositive : 0 < den) :
    (2 : ℚ) ^ floorLog2 num den ≤ num / den ∧ (num / den : ℚ) < 2 ^ (floorLog2 num den + 1) := by
  have denCast : (0 : ℚ) < den := Nat.cast_pos.mpr denPositive
  have numLow : (2 : ℚ) ^ (num.log2 : ℤ) ≤ num := by exact_mod_cast Nat.log2_self_le numPositive.ne'
  have numHigh : (num : ℚ) < 2 ^ (num.log2 + 1 : ℤ) := by exact_mod_cast Nat.lt_log2_self
  have denLow : (2 : ℚ) ^ (den.log2 : ℤ) ≤ den := by exact_mod_cast Nat.log2_self_le denPositive.ne'
  have denHigh : (den : ℚ) < 2 ^ (den.log2 + 1 : ℤ) := by exact_mod_cast Nat.lt_log2_self
  set e : ℤ := num.log2 - den.log2 with lengths
  have above : (num / den : ℚ) < 2 ^ (e + 1) := by
    rw [div_lt_iff₀ denCast]
    calc (num : ℚ) < 2 ^ (num.log2 + 1 : ℤ) := numHigh
      _ = 2 ^ (e + 1) * 2 ^ (den.log2 : ℤ) := by rw [← zpow_add₀ two_ne_zero, lengths]; congr 1; ring
      _ ≤ 2 ^ (e + 1) * den := mul_le_mul_of_nonneg_left denLow (by positivity)
  have below : (2 : ℚ) ^ (e - 1) ≤ num / den := by
    rw [le_div_iff₀ denCast]
    calc (2 : ℚ) ^ (e - 1) * den ≤ 2 ^ (e - 1) * 2 ^ (den.log2 + 1 : ℤ) :=
          mul_le_mul_of_nonneg_left denHigh.le (by positivity)
      _ = 2 ^ (num.log2 : ℤ) := by rw [← zpow_add₀ two_ne_zero, lengths]; congr 1; ring
      _ ≤ num := numLow
  have test : den * 2 ^ e.toNat ≤ num * 2 ^ (-e).toNat ↔ (2 : ℚ) ^ e ≤ num / den := by
    have shiftedPositive : (0 : ℚ) < (den * 2 ^ e.toNat : ℕ) := by positivity
    have quotient := one_le_div (a := ((num * 2 ^ (-e).toNat : ℕ) : ℚ)) shiftedPositive
    rw [shifted_quotient, zpow_neg, ← div_eq_mul_inv, one_le_div (by positivity), Nat.cast_le] at quotient
    exact quotient.symm
  unfold floorLog2
  rw [← lengths]
  dsimp only
  split
  · rename_i reached
    exact ⟨test.mp reached, above⟩
  · rename_i short
    rw [test, not_le] at short
    exact ⟨below, by rwa [sub_add_cancel]⟩

theorem roundQuotient_toEven_cases (num : Nat) {den : Nat} (positive : 0 < den) :
    let s := roundQuotient .toEven num den
    2 * (s * den) < 2 * num + den ∧ 2 * num < 2 * (s * den) + den ∨ Even s := by
  have split := Nat.div_add_mod num den
  have below := Nat.mod_lt num positive
  have here : num / den * den = den * (num / den) := Nat.mul_comm _ _
  have next : (num / den + 1) * den = den * (num / den) + den := by rw [Nat.add_one_mul, here]
  intro s
  rcases Nat.lt_trichotomy (2 * (num % den)) den with down | tie | up
  · have low : s = num / den := if_pos down
    rw [low]
    omega
  · have even : s = num / den + num / den % 2 := by
      simp only [s, roundQuotient, tie, lt_irrefl, if_false]
    exact Or.inr (Nat.even_iff.mpr (by omega))
  · have high : s = num / den + 1 := by
      simp only [s, roundQuotient, if_neg (Nat.lt_asymm up), if_pos up]
    rw [high]
    omega

/-- A quotient with its ties to even is rounded to the nearest number, an even one if there are two. -/
theorem roundQuotient_toEven (num : Nat) {den : Nat} (positive : 0 < den) :
    let s := roundQuotient .toEven num den
    Nearest (num / den) s ∧ ∀ n : ℤ, n ≠ s → |(num / den : ℚ) - n| = |(num / den : ℚ) - s| → Even s := by
  intro s
  have denPositive : (0 : ℚ) < den := Nat.cast_pos.mpr positive
  have nearest : Nearest (num / den) s := by
    have within := roundQuotient_within_half .toEven num positive
    have lower : (2 * (s * den) : ℚ) ≤ 2 * num + den := by exact_mod_cast within.1
    have upper : (2 * num : ℚ) ≤ 2 * (s * den) + den := by exact_mod_cast within.2
    rw [nearest_iff, Int.cast_natCast, abs_le, le_sub_iff_add_le, sub_le_iff_le_add, le_div_iff₀ denPositive,
      div_le_iff₀ denPositive]
    constructor <;> linarith
  refine ⟨nearest, fun n other tied => ?_⟩
  rcases roundQuotient_toEven_cases num positive with strict | even
  · have lower : (2 * (s * den) : ℚ) < 2 * num + den := by exact_mod_cast strict.1
    have upper : (2 * num : ℚ) < 2 * (s * den) + den := by exact_mod_cast strict.2
    have close : |(num / den : ℚ) - (s : ℤ)| < 1 / 2 := by
      rw [Int.cast_natCast, abs_lt, lt_sub_iff_add_lt, sub_lt_iff_lt_add, lt_div_iff₀ denPositive,
        div_lt_iff₀ denPositive]
      constructor <;> linarith
    have otherClose : |(num / den : ℚ) - n| < 1 / 2 := by rwa [tied]
    exact absurd ((eq_round_of_close otherClose).trans (eq_round_of_close close).symm) other
  · exact even

end GpuBuffer
