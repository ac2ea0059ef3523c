import GpuBuffer.Number.Basic

namespace GpuBuffer

-- Powers are those of the core library, whatever else is in scope.
attribute [local instance(high)] instPowNat

/-- A decimal `digits · 10 ^ exponent`. -/
structure Decimal where
  digits : Nat
  exponent : Int
  deriving DecidableEq

/-- The positive reals that round to one 64-bit floating-point number, in quarters of a unit in its
last place: `center`, the distances down and up, and whether the two ends belong. One quarter is
`2 ^ scale`. -/
structure RoundingInterval where
  center : Nat
  down : Nat
  up : Nat
  closed : Bool
  scale : Int

namespace RoundingInterval

/-- The interval of `significand · 2 ^ unit`, where the significand has 53 bits or the unit is the least.
The neighbour below a power of two is twice as near, except for the least normal number; an even
significand takes the ties on both sides. -/
def ofSignificand (significand : Nat) (unit : Int) : RoundingInterval where
  center := 4 * significand
  down := if significand = 2 ^ (52 : Nat) ∧ -1074 < unit then 1 else 2
  up := 2
  closed := significand % 2 = 0
  scale := unit - 2

/-- The interval of `mantissa · 2 ^ exponent`, which has at most 53 significant bits. -/
def ofScaled (mantissa : Nat) (exponent : Int) : RoundingInterval :=
  let lift := min (52 - mantissa.log2) (exponent + 1074).toNat
  ofSignificand (mantissa * 2 ^ lift) (exponent - lift)

/-- Whether `digits · 10 ^ power` lies in the interval, over the common denominator of both scales. -/
def Holds (interval : RoundingInterval) (power : Int) (digits : Nat) : Prop :=
  let point := digits * 10 ^ power.toNat * 2 ^ (-interval.scale).toNat
  let quarter := 10 ^ (-power).toNat * 2 ^ interval.scale.toNat
  let low := (interval.center - interval.down) * quarter
  let high := (interval.center + interval.up) * quarter
  if interval.closed then low ≤ point ∧ point ≤ high else low < point ∧ point < high

instance (interval : RoundingInterval) (power : Int) (digits : Nat) : Decidable (interval.Holds power digits) := by
  unfold Holds
  dsimp only
  infer_instance

/-- The center over the grid of `10 ^ power`, as a quotient of naturals. -/
def centerOn (interval : RoundingInterval) (power : Int) : Nat × Nat :=
  (interval.center * 2 ^ interval.scale.toNat * 10 ^ (-power).toNat,
    2 ^ (-interval.scale).toNat * 10 ^ power.toNat)

/-- The point of the grid of `10 ^ power` that lies in the interval and is nearest to its center, if
there is one; of two equally near ones the upper. Only the two neighbours of the center can be that. -/
def gridPoint? (interval : RoundingInterval) (power : Int) : Option Nat :=
  let (num, den) := interval.centerOn power
  let below := num / den
  if interval.Holds power below then
    if interval.Holds power (below + 1) ∧ den ≤ 2 * (num % den) then some (below + 1) else some below
  else if interval.Holds power (below + 1) then some (below + 1)
  else none

/-- An exponent whose power of ten is above the center. -/
def coarse (interval : RoundingInterval) : Nat :=
  let (num, den) := interval.centerOn 0
  (num / den).log2 / 3 + 1

/-- A grid of at least this many decimal places holds the center itself. -/
def places (interval : RoundingInterval) : Nat :=
  (-interval.scale).toNat

/-- The exponents of the grids that are tried, in order. -/
def exponents (interval : RoundingInterval) : List Int :=
  (List.range (interval.coarse + interval.places + 1)).map fun (i : Nat) => (interval.coarse : Int) - i

/-- The nearest point to the center that the coarsest grid with a point in the interval has there: a
decimal with the fewest digits. -/
def shortest (interval : RoundingInterval) : Decimal :=
  (interval.exponents.findSome? fun power => (interval.gridPoint? power).map (Decimal.mk · power)).getD ⟨0, 0⟩

end RoundingInterval

/-- Positional notation: no exponent, and no point where no digit follows it. Zeros in front make for a
digit before the point. -/
def Decimal.positional (d : Decimal) : String :=
  let digits := (toString d.digits).toList
  let places := (-d.exponent).toNat
  let padded := List.replicate (places + 1 - digits.length) '0' ++ digits
  let before := padded.length - places
  String.ofList (if places = 0 then digits ++ List.replicate d.exponent.toNat '0'
    else padded.take before ++ '.' :: padded.drop before)

/-- What the size of a number is written as. -/
def Number.decimal (mantissa : Nat) (exponent : Int) : Decimal :=
  if mantissa = 0 then ⟨0, 0⟩ else (RoundingInterval.ofScaled mantissa exponent).shortest

/-- The fewest digits that read back as the same 64-bit floating-point number, in positional notation. -/
def Number.text : Number → String
  | .nan => "NaN"
  | .infinity negative => if negative then "-inf" else "inf"
  | .finite negative mantissa exponent =>
    let size := (decimal mantissa exponent).positional
    if negative then "-" ++ size else size

end GpuBuffer
