import GpuBuffer.Values
import Mathlib.Algebra.Order.Field.Rat
import Mathlib.Data.Nat.Cast.Field
import Mathlib.Tactic.FieldSimp
import Mathlib.Tactic.Linarith
import Mathlib.Tactic.NormNum
import Mathlib.Tactic.Positivity
import Mathlib.Tactic.Ring

namespace GpuBuffer

theorem ratioOfScaled_eq (mantissa : Nat) (exponent : Int) :
    ((ratioOfScaled mantissa exponent).1 : ℚ) / (ratioOfScaled mantissa exponent).2 = mantissa * 2 ^ exponent := by
  obtain ⟨n, rfl | rfl⟩ := exponent.eq_nat_or_neg
  · simp [ratioOfScaled]
  · simp [ratioOfScaled, div_eq_mul_inv]

/-- A fraction is whole exactly if its denominator divides its numerator. -/
theorem natDiv_eq_intCast_iff {num den : Nat} (positive : 0 < den) {n : ℤ} :
    (num : ℚ) / den = n ↔ num % den = 0 ∧ n = (num / den : Nat) := by
  have nonzero : (den : ℚ) ≠ 0 := Nat.cast_ne_zero.mpr (Nat.ne_of_gt positive)
  constructor
  · intro whole
    have product : (num : ℤ) = n * den := by exact_mod_cast (div_eq_iff nonzero).mp whole
    have divides : den ∣ num := by exact_mod_cast Dvd.intro_left n product.symm
    obtain ⟨k, rfl⟩ := divides
    have same : n = k := by
      have scaled : (k : ℤ) * den = n * den := by push_cast at product; linarith
      exact (mul_right_cancel₀ (by exact_mod_cast Nat.ne_of_gt positive) scaled).symm
    rw [Nat.mul_div_cancel_left k positive]
    exact ⟨Nat.mul_mod_right den k, same⟩
  · rintro ⟨exact, rfl⟩
    rw [Int.cast_natCast, Nat.cast_div (Nat.dvd_of_mod_eq_zero exact) nonzero]

namespace Number

/-- The exact value of a number that is finite. -/
def value? : Number → Option ℚ
  | .nan => none
  | .infinity _ => none
  | .finite negative mantissa exponent => some ((if negative then -1 else 1) * (mantissa * 2 ^ exponent))

theorem exists_finite {x : Number} {q : ℚ} (value : x.value? = some q) :
    ∃ (negative : Bool) (mantissa : Nat) (exponent : ℤ), x = .finite negative mantissa exponent ∧
      q = (if negative then -1 else 1) * (mantissa * 2 ^ exponent) := by
  cases x with
  | nan => cases value
  | infinity _ => cases value
  | finite negative mantissa exponent =>
    cases value
    exact ⟨negative, mantissa, exponent, rfl, rfl⟩

@[simp] theorem value?_ofInt (n : Int) : (ofInt n).value? = some (n : ℚ) := by
  rcases lt_or_ge n 0 with negative | nonnegative
  · simp [ofInt, value?, negative, abs_of_neg (show (n : ℚ) < 0 by exact_mod_cast negative)]
  · simp [ofInt, value?, Int.not_lt.mpr nonnegative,
      abs_of_nonneg (show 0 ≤ (n : ℚ) by exact_mod_cast nonnegative)]

/-- The integer that a number denotes is its value. -/
theorem toInt?_eq_some_iff {x : Number} {n : Int} : x.toInt? = some n ↔ x.value? = some (n : ℚ) := by
  cases x with
  | nan => simp [toInt?, value?]
  | infinity negative => simp [toInt?, value?]
  | finite negative mantissa exponent =>
    have positive := ratioOfScaled_den_pos mantissa exponent
    simp only [toInt?, value?, ← ratioOfScaled_eq, Option.some.injEq, Option.ite_none_right_eq_some]
    cases negative with
    | false =>
      rw [if_neg Bool.false_ne_true, if_neg Bool.false_ne_true, one_mul, natDiv_eq_intCast_iff positive,
        eq_comm (b := n)]
    | true =>
      rw [if_pos rfl, if_pos rfl, neg_one_mul, neg_eq_iff_eq_neg, neg_eq_iff_eq_neg, ← Int.cast_neg,
        natDiv_eq_intCast_iff positive, eq_comm (b := -n)]

end Number

/-- The rationals between two infinities. -/
abbrev ExtendedRat := WithBot (WithTop ℚ)

abbrev ExtendedRat.ofRat (q : ℚ) : ExtendedRat :=
  WithBot.some (WithTop.some q)

/-- The value of all that is a number, the infinities included. -/
def Number.extended? : Number → Option ExtendedRat
  | .infinity negative => some (if negative then ⊥ else ⊤)
  | x => x.value?.map ExtendedRat.ofRat

theorem Number.extended?_ofInt (n : Int) : (ofInt n).extended? = some (.ofRat n) :=
  congrArg (Option.map ExtendedRat.ofRat) (value?_ofInt n)

/-- Only the infinities have a value here and no value there. -/
theorem Number.extended?_eq_some_ofRat_iff {x : Number} {v : ℚ} :
    x.extended? = some (.ofRat v) ↔ x.value? = some v := by
  cases x with
  | nan => simp [extended?, value?]
  | infinity negative => cases negative <;> simp [extended?, value?]
  | finite negative mantissa exponent => simp [extended?, value?]

/-- A whole number of at most so many binary digits over one of these powers of two. -/
def IsScaled (digits : Nat) (low high : ℤ) (q : ℚ) : Prop :=
  ∃ significand exponent : ℤ, |significand| < 2 ^ digits ∧ low ≤ exponent ∧ exponent ≤ high ∧
    q = significand * 2 ^ exponent

/-- A value of the 64-bit floating-point format: 53 significant bits over the exponents that it has. -/
def IsBinary64 (q : ℚ) : Prop :=
  IsScaled 53 (-1074) 971 q

theorem IsScaled.natMul {digits : Nat} {low high : ℤ} {q : ℚ} (scaled : IsScaled digits low high q)
    {factor size : Nat} (small : factor < 2 ^ size) : IsScaled (size + digits) low high (factor * q) := by
  obtain ⟨significand, exponent, bound, above, below, rfl⟩ := scaled
  refine ⟨factor * significand, exponent, ?_, above, below, by push_cast; ring⟩
  rw [abs_mul, Nat.abs_cast, pow_add]
  exact mul_lt_mul'' (by exact_mod_cast small) bound (Int.natCast_nonneg _) (abs_nonneg _)

theorem IsScaled.isBinary64 {digits : Nat} {low high : ℤ} {q : ℚ} (scaled : IsScaled digits low high q)
    (short : digits ≤ 53) (above : -1074 ≤ low) (below : high ≤ 971) : IsBinary64 q := by
  obtain ⟨significand, exponent, bound, least, greatest, rfl⟩ := scaled
  exact ⟨significand, exponent, bound.trans_le (pow_le_pow_right₀ one_le_two short), above.trans least,
    greatest.trans below, rfl⟩

namespace Binary32

def negative (x : Binary32) : Bool :=
  decide (2 ^ 31 ≤ x.bits.toNat)

def biasedExponent (x : Binary32) : Nat :=
  x.bits.toNat / 2 ^ 23 % 256

def fraction (x : Binary32) : Nat :=
  x.bits.toNat % 2 ^ 23

/-- The value that the format's own formula gives to a bit pattern: a significand `1.fraction` over a
bias of 127, or `0.fraction` at the least exponent. The largest exponent has no finite values. -/
def value? (x : Binary32) : Option ℚ :=
  let sign : ℚ := if x.negative then -1 else 1
  if x.biasedExponent = 255 then none
  else if x.biasedExponent = 0 then some (sign * (x.fraction / 2 ^ 23) * 2 ^ (-126 : ℤ))
  else some (sign * (1 + x.fraction / 2 ^ 23) * 2 ^ (x.biasedExponent - 127 : ℤ))

theorem toNumber_eq (x : Binary32) : x.toNumber =
    if x.biasedExponent = 255 then if x.fraction = 0 then .infinity x.negative else .nan
    else if x.biasedExponent = 0 then .finite x.negative x.fraction (-149)
    else .finite x.negative (x.fraction + 2 ^ 23) (x.biasedExponent - 150) := rfl

theorem value?_toNumber (x : Binary32) : x.toNumber.value? = x.value? := by
  have shifted (e : ℤ) : (2 : ℚ) ^ (e - 23) = 2 ^ e / 2 ^ 23 := by
    rw [zpow_sub₀ two_ne_zero]
    rfl
  rw [toNumber_eq, value?]
  by_cases special : x.biasedExponent = 255
  · rw [if_pos special, if_pos special]
    split <;> rfl
  · rw [if_neg special, if_neg special]
    by_cases subnormal : x.biasedExponent = 0
    · rw [if_pos subnormal, if_pos subnormal, Number.value?, show (-149 : ℤ) = -126 - 23 by rfl, shifted]
      congr 1
      ring
    · rw [if_neg subnormal, if_neg subnormal, Number.value?,
        show (x.biasedExponent : ℤ) - 150 = (x.biasedExponent - 127) - 23 by ring, shifted]
      congr 1
      push_cast
      ring

/-- The largest exponent is left to the infinities and, over any other fraction, to what is not a number. -/
def extended? (x : Binary32) : Option ExtendedRat :=
  if x.biasedExponent = 255 ∧ x.fraction = 0 then some (if x.negative then ⊥ else ⊤)
  else x.value?.map ExtendedRat.ofRat

theorem extended?_toNumber (x : Binary32) : x.toNumber.extended? = x.extended? := by
  rw [extended?, ← value?_toNumber, toNumber_eq]
  by_cases special : x.biasedExponent = 255
  · by_cases infinite : x.fraction = 0
    · rw [if_pos special, if_pos infinite, if_pos ⟨special, infinite⟩]
      rfl
    · have other : ¬ (x.biasedExponent = 255 ∧ x.fraction = 0) := fun both => infinite both.2
      rw [if_pos special, if_neg infinite, if_neg other]
      rfl
  · have finite : ¬ (x.biasedExponent = 255 ∧ x.fraction = 0) := fun both => special both.1
    rw [if_neg special, if_neg finite]
    split <;> rfl

end Binary32

/-- A number in one of the types that the host has for numbers. -/
inductive HostNumber
  | float (x : Binary32)
  | signed (x : Int32)
  | unsigned (x : UInt32)

namespace HostNumber

def number : HostNumber → Number
  | .float x => x.toNumber
  | .signed x => .ofInt x.toInt
  | .unsigned x => .ofInt x.toNat

/-- The value by the rules of its type, if it is finite. -/
def value? : HostNumber → Option ℚ
  | .float x => x.value?
  | .signed x => some x.toInt
  | .unsigned x => some x.toNat

/-- Nothing is lost on the way to an exact number. -/
theorem value?_number (host : HostNumber) : host.number.value? = host.value? := by
  cases host with
  | float x => exact x.value?_toNumber
  | signed x => exact Number.value?_ofInt _
  | unsigned x => exact Number.value?_ofInt _

theorem mantissa_lt {host : HostNumber} {negative : Bool} {mantissa : Nat} {exponent : Int}
    (finite : host.number = .finite negative mantissa exponent) :
    mantissa < 2 ^ 32 ∧ -149 ≤ exponent ∧ exponent ≤ 104 := by
  cases host with
  | float x =>
    have fraction : x.fraction < 2 ^ 23 := Nat.mod_lt _ (by decide)
    have exponentBound : x.biasedExponent < 256 := Nat.mod_lt _ (by decide)
    rw [number, Binary32.toNumber_eq] at finite
    split at finite
    · split at finite <;> cases finite
    · split at finite
      · cases finite
        omega
      · cases finite
        omega
  | signed x =>
    have above := x.le_toInt
    have below := x.toInt_lt
    cases finite
    omega
  | unsigned x =>
    have below := x.toNat_lt
    cases finite
    omega

theorem isScaled {host : HostNumber} {v : ℚ} (value : host.value? = some v) : IsScaled 32 (-149) 104 v := by
  rw [← value?_number] at value
  cases number : host.number with
  | nan => rw [number] at value; cases value
  | infinity _ => rw [number] at value; cases value
  | finite negative mantissa exponent =>
    obtain ⟨bound, low, high⟩ := mantissa_lt number
    rw [number] at value
    cases value
    refine ⟨if negative then -mantissa else mantissa, exponent, ?_, low, high, ?_⟩
    · split <;> simp only [abs_neg, Nat.abs_cast] <;> omega
    · split <;> push_cast <;> ring

theorem isBinary64 {host : HostNumber} {v : ℚ} (value : host.value? = some v) : IsBinary64 v :=
  (isScaled value).isBinary64 (by decide) (by decide) (by decide)

/-- The value by the rules of its type, infinities included. -/
def extended? : HostNumber → Option ExtendedRat
  | .float x => x.extended?
  | .signed x => some (.ofRat x.toInt)
  | .unsigned x => some (.ofRat x.toNat)

theorem extended?_number (host : HostNumber) : host.number.extended? = host.extended? := by
  cases host with
  | float x => exact x.extended?_toNumber
  | signed x => exact Number.extended?_ofInt _
  | unsigned x => exact Number.extended?_ofInt _

theorem extended?_eq_some_ofRat_iff {host : HostNumber} {v : ℚ} :
    host.extended? = some (.ofRat v) ↔ host.value? = some v := by
  rw [← extended?_number, ← value?_number, Number.extended?_eq_some_ofRat_iff]

end HostNumber

def Values.hosts : Values → List HostNumber
  | .floats list => list.map .float
  | .signed list => list.map .signed
  | .unsigned list => list.map .unsigned

/-- Each number of a field is the one that the host supplies at its index. -/
theorem Values.getElem?_numbers {values : Values} {i : Nat} {host : HostNumber}
    (supplied : values.hosts[i]? = some host) : values.numbers[i]? = some host.number := by
  have numbers : values.numbers = values.hosts.map (·.number) := by
    cases values <;> simp [hosts, numbers, HostNumber.number]
  rw [numbers, List.getElem?_map, supplied, Option.map_some]

end GpuBuffer
