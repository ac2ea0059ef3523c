import GpuBuffer.Format.Tag
import GpuBuffer.Format.Shape

namespace GpuBuffer

/-- The type of a struct member, as a shader spells it. -/
inductive MemberType
  | f32
  | i32
  | u32
  | vec2f
  | vec3f
  | vec4f
  | vec2i
  | vec3i
  | vec4i
  | vec2u
  | vec3u
  | vec4u
  | mat2x2f
  | mat3x3f
  | mat4x4f
  deriving DecidableEq

namespace MemberType

def all : List MemberType :=
  [.f32, .i32, .u32, .vec2f, .vec3f, .vec4f,
   .vec2i, .vec3i, .vec4i, .vec2u, .vec3u, .vec4u,
   .mat2x2f, .mat3x3f, .mat4x4f]

def tag : MemberType → String
  | .f32 => "f32"
  | .i32 => "i32"
  | .u32 => "u32"
  | .vec2f => "vec2f"
  | .vec3f => "vec3f"
  | .vec4f => "vec4f"
  | .vec2i => "vec2i"
  | .vec3i => "vec3i"
  | .vec4i => "vec4i"
  | .vec2u => "vec2u"
  | .vec3u => "vec3u"
  | .vec4u => "vec4u"
  | .mat2x2f => "mat2x2f"
  | .mat3x3f => "mat3x3f"
  | .mat4x4f => "mat4x4f"

instance : Tagged MemberType := ⟨all, tag⟩

theorem mem_all (type : MemberType) : type ∈ all := by cases type <;> decide

def shape : MemberType → Shape
  | .f32 => ⟨.float32, .single⟩
  | .i32 => ⟨.sint32, .single⟩
  | .u32 => ⟨.uint32, .single⟩
  | .vec2f => ⟨.float32, .vector 2⟩
  | .vec3f => ⟨.float32, .vector 3⟩
  | .vec4f => ⟨.float32, .vector 4⟩
  | .vec2i => ⟨.sint32, .vector 2⟩
  | .vec3i => ⟨.sint32, .vector 3⟩
  | .vec4i => ⟨.sint32, .vector 4⟩
  | .vec2u => ⟨.uint32, .vector 2⟩
  | .vec3u => ⟨.uint32, .vector 3⟩
  | .vec4u => ⟨.uint32, .vector 4⟩
  | .mat2x2f => ⟨.float32, .matrix 2 2⟩
  | .mat3x3f => ⟨.float32, .matrix 3 3⟩
  | .mat4x4f => ⟨.float32, .matrix 4 4⟩

/-- The bytes a member takes, without the gap that its successor's alignment may leave. -/
def size (type : MemberType) : Nat :=
  type.shape.size

def alignment (type : MemberType) : Nat :=
  type.shape.alignment

theorem alignment_pos (type : MemberType) : 0 < type.alignment := by cases type <;> decide

end MemberType

end GpuBuffer
