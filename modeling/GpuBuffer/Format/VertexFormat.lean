import GpuBuffer.Format.Tag
import GpuBuffer.Format.Shape

namespace GpuBuffer

/-- The component format of a vertex attribute. -/
inductive VertexFormat
  | uint8x2
  | uint8x4
  | unorm8x2
  | unorm8x4
  | uint16x2
  | uint16x4
  | uint32
  | uint32x2
  | uint32x3
  | uint32x4
  | sint32
  | sint32x2
  | sint32x3
  | sint32x4
  | float32
  | float32x2
  | float32x3
  | float32x4
  deriving DecidableEq

namespace VertexFormat

def all : List VertexFormat :=
  [.uint8x2, .uint8x4, .unorm8x2, .unorm8x4, .uint16x2, .uint16x4,
   .uint32, .uint32x2, .uint32x3, .uint32x4, .sint32, .sint32x2,
   .sint32x3, .sint32x4, .float32, .float32x2, .float32x3, .float32x4]

def tag : VertexFormat → String
  | .uint8x2 => "uint8x2"
  | .uint8x4 => "uint8x4"
  | .unorm8x2 => "unorm8x2"
  | .unorm8x4 => "unorm8x4"
  | .uint16x2 => "uint16x2"
  | .uint16x4 => "uint16x4"
  | .uint32 => "uint32"
  | .uint32x2 => "uint32x2"
  | .uint32x3 => "uint32x3"
  | .uint32x4 => "uint32x4"
  | .sint32 => "sint32"
  | .sint32x2 => "sint32x2"
  | .sint32x3 => "sint32x3"
  | .sint32x4 => "sint32x4"
  | .float32 => "float32"
  | .float32x2 => "float32x2"
  | .float32x3 => "float32x3"
  | .float32x4 => "float32x4"

instance : Tagged VertexFormat := ⟨all, tag⟩

theorem mem_all (format : VertexFormat) : format ∈ all := by cases format <;> decide

def shape : VertexFormat → Shape
  | .uint8x2 => ⟨.uint8, .vector 2⟩
  | .uint8x4 => ⟨.uint8, .vector 4⟩
  | .unorm8x2 => ⟨.unorm8, .vector 2⟩
  | .unorm8x4 => ⟨.unorm8, .vector 4⟩
  | .uint16x2 => ⟨.uint16, .vector 2⟩
  | .uint16x4 => ⟨.uint16, .vector 4⟩
  | .uint32 => ⟨.uint32, .single⟩
  | .uint32x2 => ⟨.uint32, .vector 2⟩
  | .uint32x3 => ⟨.uint32, .vector 3⟩
  | .uint32x4 => ⟨.uint32, .vector 4⟩
  | .sint32 => ⟨.sint32, .single⟩
  | .sint32x2 => ⟨.sint32, .vector 2⟩
  | .sint32x3 => ⟨.sint32, .vector 3⟩
  | .sint32x4 => ⟨.sint32, .vector 4⟩
  | .float32 => ⟨.float32, .single⟩
  | .float32x2 => ⟨.float32, .vector 2⟩
  | .float32x3 => ⟨.float32, .vector 3⟩
  | .float32x4 => ⟨.float32, .vector 4⟩

def size (format : VertexFormat) : Nat :=
  format.shape.size

end VertexFormat

end GpuBuffer
