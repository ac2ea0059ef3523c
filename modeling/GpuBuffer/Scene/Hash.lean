import GpuBuffer.Number.Binary32

namespace GpuBuffer.Scene

def rotateLeft (x amount : UInt32) : UInt32 :=
  x <<< amount ||| x >>> (32 - amount)

/-- Spreads a seed over all 32 bits. Both factors are odd, so no two seeds meet. -/
def scramble (seed : UInt32) : UInt32 :=
  rotateLeft (seed * 0x9E3779B9) 13 * 0x85EBCA6B

/-- A repeatable stand-in for a random number in `[0, 1)`: the upper 24 bits of the scrambled seed,
over `2 ^ 24`. -/
def unitHash (seed : UInt32) : Binary32 :=
  .ofNat (scramble seed >>> 8).toNat / 16777216

end GpuBuffer.Scene
