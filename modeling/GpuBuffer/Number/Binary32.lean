import GpuBuffer.Number.Basic
import GpuBuffer.Number.Rounding

namespace GpuBuffer

-- Powers are those of the core library, whatever else is in scope.
attribute [local instance(high)] instPowNat

/-- A 32-bit floating-point number, given by its bits: sign, eight exponent bits, 23 fraction bits. -/
structure Binary32 where
  bits : UInt32
  deriving DecidableEq

namespace Binary32

def nan : Binary32 := ⟨0x7FC00000⟩

/-- The bits of `negative`'s sign over a magnitude of 31 bits. -/
def ofMagnitude (negative : Bool) (magnitude : Nat) : Binary32 :=
  ⟨UInt32.ofNat ((if negative then 2 ^ (31 : Nat) else 0) + magnitude)⟩

/-- The magnitude that stands for infinity: all exponent bits set and no fraction bit. -/
def infinityMagnitude : Nat := 255 * 2 ^ (23 : Nat)

/-- The exponent of the last place of a quotient: 24 significant bits, but never finer than `2 ^ -149`. -/
def unitExponent (num den : Nat) : Int :=
  max (floorLog2 num den - 23) (-149)

/-- The nearest number to `± num / den`, ties to the even significand; from half a unit above the
largest number on, infinity.

Adding the significand, leading bit included, to the biased exponent makes a significand that rounds
up to the next power of two carry into the exponent. -/
def ofRatio (negative : Bool) (num den : Nat) : Binary32 :=
  if num = 0 then ofMagnitude negative 0
  else
    let unit := unitExponent num den
    let significand := roundQuotient .toEven (num * 2 ^ (-unit).toNat) (den * 2 ^ unit.toNat)
    ofMagnitude negative (min ((unit + 149).toNat * 2 ^ (23 : Nat) + significand) infinityMagnitude)

def ofNumber : Number → Binary32
  | .nan => nan
  | .infinity negative => ofMagnitude negative infinityMagnitude
  | .finite negative mantissa exponent =>
    let (num, den) := ratioOfScaled mantissa exponent
    ofRatio negative num den

def ofNat (value : Nat) : Binary32 :=
  ofRatio false value 1

/-- The exact value. Subnormal numbers have the exponent of the least normal ones and no leading bit. -/
def toNumber (x : Binary32) : Number :=
  let word := x.bits.toNat
  let negative := decide (2 ^ (31 : Nat) ≤ word)
  let exponent : Nat := word / 2 ^ (23 : Nat) % 256
  let fraction : Nat := word % 2 ^ (23 : Nat)
  if exponent = 255 then if fraction = 0 then .infinity negative else .nan
  else if exponent = 0 then .finite negative fraction (-149)
  else .finite negative (fraction + 2 ^ (23 : Nat)) (exponent - 150)

/-- The rounded quotient of two exact values. -/
def quotient : Number → Number → Binary32
  | .nan, _ => nan
  | _, .nan => nan
  | .infinity _, .infinity _ => nan
  | .infinity s, .finite t _ _ => ofMagnitude (s != t) infinityMagnitude
  | .finite s _ _, .infinity t => ofMagnitude (s != t) 0
  | .finite s m e, .finite t n f =>
    if n = 0 then if m = 0 then nan else ofMagnitude (s != t) infinityMagnitude
    else ofRatio (s != t) (m * 2 ^ (e - f).toNat) (n * 2 ^ (f - e).toNat)

instance : Neg Binary32 := ⟨fun x => ofNumber x.toNumber.neg⟩
instance : Add Binary32 := ⟨fun x y => ofNumber (x.toNumber.add y.toNumber)⟩
instance : Sub Binary32 := ⟨fun x y => ofNumber (x.toNumber.add y.toNumber.neg)⟩
instance : Mul Binary32 := ⟨fun x y => ofNumber (x.toNumber.mul y.toNumber)⟩
instance : Div Binary32 := ⟨fun x y => quotient x.toNumber y.toNumber⟩
instance (n : Nat) : OfNat Binary32 n := ⟨ofNat n⟩

end Binary32

end GpuBuffer
