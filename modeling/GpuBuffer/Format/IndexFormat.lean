import GpuBuffer.Format.Tag
import GpuBuffer.Format.Shape

namespace GpuBuffer

/-- The width of the entries of an index list. -/
inductive IndexFormat
  | uint16
  | uint32
  deriving DecidableEq

namespace IndexFormat

def all : List IndexFormat := [.uint16, .uint32]

def tag : IndexFormat → String
  | .uint16 => "uint16"
  | .uint32 => "uint32"

instance : Tagged IndexFormat := ⟨all, tag⟩

theorem mem_all (format : IndexFormat) : format ∈ all := by cases format <;> decide

def scalar : IndexFormat → Scalar
  | .uint16 => .uint16
  | .uint32 => .uint32

def size (format : IndexFormat) : Nat :=
  format.scalar.width

end IndexFormat

end GpuBuffer
