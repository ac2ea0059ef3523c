namespace GpuBuffer

-- Powers are those of the core library, whatever else is in scope.
attribute [local instance(high)] instPowNat

/-- Where a quotient halfway between two whole numbers goes. -/
inductive Tie
  | toEven
  | upward
  deriving DecidableEq

/-- The whole number nearest to `num / den`. -/
def roundQuotient (tie : Tie) (num den : Nat) : Nat :=
  let below := num / den
  let excess := 2 * (num % den)
  if excess < den then below
  else if den < excess then below + 1
  else match tie with
    | .toEven => below + below % 2
    | .upward => below + 1

/-- A rounded quotient is off by at most half a unit, whichever way ties go. -/
theorem roundQuotient_within_half (tie : Tie) (num : Nat) {den : Nat} (positive : 0 < den) :
    2 * (roundQuotient tie num den * den) ≤ 2 * num + den ∧
      2 * num ≤ 2 * (roundQuotient tie num den * den) + den := by
  have split := Nat.div_add_mod num den
  have below := Nat.mod_lt num positive
  rw [Nat.mul_comm den (num / den)] at split
  have next : (num / den + 1) * den = num / den * den + den := by rw [Nat.add_mul, Nat.one_mul]
  unfold roundQuotient
  dsimp only
  split
  · omega
  · split
    · omega
    · cases tie with
      | upward => dsimp only; omega
      | toEven =>
        dsimp only
        rcases Nat.mod_two_eq_zero_or_one (num / den) with even | odd
        · rw [even, Nat.add_zero]; omega
        · rw [odd]; omega

/-- The integer `e` with `2 ^ e ≤ num / den < 2 ^ (e + 1)`, for positive `num` and `den`. -/
def floorLog2 (num den : Nat) : Int :=
  let e : Int := (num.log2 : Int) - den.log2
  if den * 2 ^ e.toNat ≤ num * 2 ^ (-e).toNat then e else e - 1

end GpuBuffer
