import GpuBuffer.Image.Bytes
import Mathlib.Algebra.GroupWithZero.Nat

namespace GpuBuffer

/-- The number that bytes stand for, the least significant first. -/
def fromLittleEndian : List UInt8 → Nat
  | [] => 0
  | b :: rest => b.toNat + 256 * fromLittleEndian rest

theorem fromLittleEndian_littleEndian (width n : Nat) :
    fromLittleEndian (littleEndian width n) = n % 256 ^ width := by
  induction width generalizing n with
  | zero => simp [littleEndian, fromLittleEndian, Nat.mod_one]
  | succ width ih =>
    have step : 256 ^ (width + 1) = 256 * 256 ^ width := Nat.pow_succ'
    rw [littleEndian, fromLittleEndian, ih, UInt8.toNat_ofNat', step]
    exact Nat.mod_mul.symm

end GpuBuffer
