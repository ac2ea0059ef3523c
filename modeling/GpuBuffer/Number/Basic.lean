namespace GpuBuffer

-- Powers are those of the core library, whatever else is in scope.
attribute [local instance(high)] instPowNat

/-- A number supplied by the host: not a number, an infinity, or exactly `± mantissa · 2 ^ exponent`.
A zero keeps its sign. -/
inductive Number
  | nan
  | infinity (negative : Bool)
  | finite (negative : Bool) (mantissa : Nat) (exponent : Int)
  deriving DecidableEq

/-- `mantissa · 2 ^ exponent` as a quotient of naturals with a positive denominator. -/
def ratioOfScaled (mantissa : Nat) (exponent : Int) : Nat × Nat :=
  (mantissa * 2 ^ exponent.toNat, 2 ^ (-exponent).toNat)

theorem ratioOfScaled_den_pos (mantissa : Nat) (exponent : Int) : 0 < (ratioOfScaled mantissa exponent).2 :=
  Nat.two_pow_pos _

namespace Number

def ofInt (value : Int) : Number :=
  .finite (decide (value < 0)) value.natAbs 0

/-- The integer a number denotes, if it denotes one. Both zeros denote `0`. -/
def toInt? : Number → Option Int
  | .nan => none
  | .infinity _ => none
  | .finite negative mantissa exponent =>
    let (num, den) := ratioOfScaled mantissa exponent
    if num % den = 0 then some (if negative then -((num / den : Nat) : Int) else ((num / den : Nat) : Int))
    else none

theorem toInt?_ofInt (value : Int) : (ofInt value).toInt? = some value := by
  simp only [ofInt, toInt?, ratioOfScaled, Int.toNat_zero, Int.neg_zero, Nat.pow_zero, Nat.mul_one,
    Nat.mod_one, Nat.div_one, if_true, decide_eq_true_eq]
  split <;> congr 1 <;> omega

def neg : Number → Number
  | .nan => .nan
  | .infinity negative => .infinity !negative
  | .finite negative mantissa exponent => .finite (!negative) mantissa exponent

/-- A finite number as a whole multiple of `2 ^ unit`, for a `unit` not above its exponent. -/
def multiplesOf (unit : Int) (negative : Bool) (mantissa : Nat) (exponent : Int) : Int :=
  let count : Int := (mantissa * 2 ^ (exponent - unit).toNat : Nat)
  if negative then -count else count

/-- The exact sum. A vanishing sum is negative only if both summands are, and opposite infinities
have none. -/
def add : Number → Number → Number
  | .nan, _ => .nan
  | _, .nan => .nan
  | .infinity s, .infinity t => if s = t then .infinity s else .nan
  | .infinity s, .finite _ _ _ => .infinity s
  | .finite _ _ _, .infinity t => .infinity t
  | .finite s m e, .finite t n f =>
    let unit := min e f
    let sum := multiplesOf unit s m e + multiplesOf unit t n f
    if sum = 0 then .finite (s && t) 0 unit else .finite (decide (sum < 0)) sum.natAbs unit

/-- The exact product. Zero times an infinity has none. -/
def mul : Number → Number → Number
  | .nan, _ => .nan
  | _, .nan => .nan
  | .infinity s, .infinity t => .infinity (s != t)
  | .infinity s, .finite t n _ => if n = 0 then .nan else .infinity (s != t)
  | .finite s m _, .infinity t => if m = 0 then .nan else .infinity (s != t)
  | .finite s m e, .finite t n f => .finite (s != t) (m * n) (e + f)

end Number

end GpuBuffer
