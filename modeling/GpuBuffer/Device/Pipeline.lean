import GpuBuffer.Format.IndexFormat
import GpuBuffer.Vertex.Layout

namespace GpuBuffer

/-- The attribute formats of a render pipeline, as far as vertex streams use them. -/
inductive PipelineFormat
  | uint8x2
  | uint8x4
  | unorm8x2
  | unorm8x4
  | uint16x2
  | uint16x4
  | uint32
  | uint32x2
  | uint32x3
  | uint32x4
  | sint32
  | sint32x2
  | sint32x3
  | sint32x4
  | float32
  | float32x2
  | float32x3
  | float32x4
  deriving DecidableEq

namespace PipelineFormat

/-- The bytes a pipeline fetches for an attribute. -/
def size : PipelineFormat → Nat
  | .uint8x2 | .unorm8x2 => 2
  | .uint8x4 | .unorm8x4 | .uint16x2 | .uint32 | .sint32 | .float32 => 4
  | .uint16x4 | .uint32x2 | .sint32x2 | .float32x2 => 8
  | .uint32x3 | .sint32x3 | .float32x3 => 12
  | .uint32x4 | .sint32x4 | .float32x4 => 16

def name : PipelineFormat → String
  | .uint8x2 => "Uint8x2"
  | .uint8x4 => "Uint8x4"
  | .unorm8x2 => "Unorm8x2"
  | .unorm8x4 => "Unorm8x4"
  | .uint16x2 => "Uint16x2"
  | .uint16x4 => "Uint16x4"
  | .uint32 => "Uint32"
  | .uint32x2 => "Uint32x2"
  | .uint32x3 => "Uint32x3"
  | .uint32x4 => "Uint32x4"
  | .sint32 => "Sint32"
  | .sint32x2 => "Sint32x2"
  | .sint32x3 => "Sint32x3"
  | .sint32x4 => "Sint32x4"
  | .float32 => "Float32"
  | .float32x2 => "Float32x2"
  | .float32x3 => "Float32x3"
  | .float32x4 => "Float32x4"

def ofVertexFormat : VertexFormat → PipelineFormat
  | .uint8x2 => .uint8x2
  | .uint8x4 => .uint8x4
  | .unorm8x2 => .unorm8x2
  | .unorm8x4 => .unorm8x4
  | .uint16x2 => .uint16x2
  | .uint16x4 => .uint16x4
  | .uint32 => .uint32
  | .uint32x2 => .uint32x2
  | .uint32x3 => .uint32x3
  | .uint32x4 => .uint32x4
  | .sint32 => .sint32
  | .sint32x2 => .sint32x2
  | .sint32x3 => .sint32x3
  | .sint32x4 => .sint32x4
  | .float32 => .float32
  | .float32x2 => .float32x2
  | .float32x3 => .float32x3
  | .float32x4 => .float32x4

end PipelineFormat

/-- When a render pipeline goes on to the next element of a vertex buffer. -/
inductive PipelineStepMode
  | eachVertex
  | eachInstance
  deriving DecidableEq

namespace PipelineStepMode

def name : PipelineStepMode → String
  | .eachVertex => "Vertex"
  | .eachInstance => "Instance"

def ofStepMode : StepMode → PipelineStepMode
  | .perVertex => .eachVertex
  | .perInstance => .eachInstance

end PipelineStepMode

/-- The widths that a render pipeline reads the entries of an index list in. -/
inductive PipelineIndexFormat
  | uint16
  | uint32
  deriving DecidableEq

namespace PipelineIndexFormat

/-- The bytes a pipeline reads for an entry. -/
def size : PipelineIndexFormat → Nat
  | .uint16 => 2
  | .uint32 => 4

def name : PipelineIndexFormat → String
  | .uint16 => "Uint16"
  | .uint32 => "Uint32"

def ofIndexFormat : IndexFormat → PipelineIndexFormat
  | .uint16 => .uint16
  | .uint32 => .uint32

end PipelineIndexFormat

structure PipelineAttribute where
  format : PipelineFormat
  offset : Nat
  location : Nat
  deriving DecidableEq

/-- A vertex buffer as a render pipeline sees it. -/
structure PipelineLayout where
  arrayStride : Nat
  stepMode : PipelineStepMode
  attributes : List PipelineAttribute
  deriving DecidableEq

def VertexBinding.pipelineLayout (binding : VertexBinding) : PipelineLayout :=
  ⟨binding.arrayStride, .ofStepMode binding.stepMode,
    binding.attributes.map fun a => ⟨.ofVertexFormat a.format, a.offset, a.slot⟩⟩

end GpuBuffer
